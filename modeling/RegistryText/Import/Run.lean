import RegistryText.Import.Bound
import RegistryText.Import.Options
import RegistryText.Lines.Sized

/-!
# Running an import

An importer is made from a source: the first two bytes tell the encoding, and
belong to the text unless they are the byte order mark.  A run makes steps until
the lines are over or the import fails, and **then closes the open key and lets
go of the lines, whatever happened**.

An importer can be run again.  The second run goes on in the state in which the
first one ended, without lines.
-/

namespace RegistryText

namespace Importer

section Run

variable {ρ σ κ : Type} [LineSupply ρ] [RegistryStore σ κ]

/-- Make steps until the lines are over or the import fails. -/
def loop (m : Importer ρ σ κ) (place : Nat) : Except ImportError Unit × Importer ρ σ κ :=
  match h : m.step place with
  | (.proceed next, m') =>
      have : m'.remaining < m.remaining := remaining_step h
      m'.loop next
  | (.finished, m') => (.ok (), m')
  | (.failed e, m') => (.error e, m')
termination_by m.remaining

/-- A step that goes on is one of the steps of the loop. -/
theorem loop_of_proceed {m m' : Importer ρ σ κ} {place next : Nat}
    (h : m.step place = (.proceed next, m')) : m.loop place = m'.loop next := by
  rw [loop]
  split <;> simp_all

/-- The loop ends with the lines. -/
theorem loop_of_finished {m m' : Importer ρ σ κ} {place : Nat}
    (h : m.step place = (.finished, m')) : m.loop place = (.ok (), m') := by
  rw [loop]
  split <;> simp_all

/-- The loop ends with a failure. -/
theorem loop_of_failed {m m' : Importer ρ σ κ} {place : Nat} {e : ImportError}
    (h : m.step place = (.failed e, m')) : m.loop place = (.error e, m') := by
  rw [loop]
  split <;> simp_all

/-- How a run ends that read all lines: structured files are not imported in
full. -/
def outcome : Option Dialect → Except ImportError Unit
  | none => .ok ()
  | some d => if d.isStructured then .error (.notImplemented d) else .ok ()

/-- Run to the end of the lines. -/
def run (m : Importer ρ σ κ) : Except ImportError Unit × Importer ρ σ κ :=
  let r := m.loop 0
  let ended := r.2.finish
  match r.1 with
  | .error e => (.error e, ended)
  | .ok () => (outcome ended.dialect, ended)

end Run

section Source

variable {σ κ : Type}

/-- An importer of what follows two bytes that have been read. -/
def ofFirstBytes (first second : UInt8) (rest : Source) (store : σ) (options : ImportOptions) :
    Importer LineReader σ κ :=
  let encoding := FileEncoding.detect first second
  let reader := LineReader.ofSource rest encoding options.page options.capacity
  { lines := match encoding with
      | .narrow => reader.append [first, second]
      | .wide => reader
    store := store
    report := { encoding := encoding } }

/-- An importer of a source, unless its first two bytes cannot be read. -/
def ofSource (source : Source) (store : σ) (options : ImportOptions) :
    Except ImportError (Importer LineReader σ κ) :=
  match source.read 2 with
  | (.error message, _) => .error (.io message)
  | (.ok [], _) => .error (.inputTooShort 0)
  | (.ok (first :: second :: _), rest) => .ok (ofFirstBytes first second rest store options)
  | (.ok [first], rest) =>
      match rest.read 1 with
      | (.error message, _) => .error (.io message)
      | (.ok [], _) => .error (.inputTooShort 1)
      | (.ok (second :: _), rest) => .ok (ofFirstBytes first second rest store options)

/-- A new importer, on a machine. -/
def sized (m : Importer LineReader σ κ) : Importer SizedReader σ κ :=
  { m with lines := m.lines.sized }

end Source

end Importer

/-- Import a source into a store. -/
def importSource {σ κ : Type} [RegistryStore σ κ] (source : Source) (store : σ)
    (options : ImportOptions) : Except ImportError ImportReport × σ :=
  match Importer.ofSource (κ := κ) source store options with
  | .error e => (.error e, store)
  | .ok m =>
      match m.run with
      | (.error e, m) => (.error e, m.store)
      | (.ok (), m) => (.ok m.report, m.store)

/-- Import the file of a path, given how files are opened. -/
def importFile {σ κ : Type} [RegistryStore σ κ] (openFile : Text → Option Source) (path : Text)
    (store : σ) (options : ImportOptions) : Except ImportError ImportReport × σ :=
  match openFile path with
  | none => (.error (.fileNotFound path), store)
  | some source => importSource source store options

end RegistryText
