import RegistryText.Import.Error
import RegistryText.Import.Report
import RegistryText.Lines.Supply
import RegistryText.Store.Basic

/-!
# The state of an import

An importer walks through its lines one at a time.  What it does next depends
on its state: the three states that stand in front of a line take a new one,
all others go on at a place in the current line.  Besides its state the
importer holds the open key, the name and type of the value that is being read,
and the data that is ready to be set.  It keeps the dialect of the header for
its own use, beside the one in its report.
-/

namespace RegistryText

/-- What an importer reads next. -/
inductive ImportState where
  /-- The header line. -/
  | header
  /-- A line of the Windows 3.1 dialect. -/
  | windows31Line
  /-- A line of a structured file. -/
  | lineStart
  /-- The name of a key, behind the opening bracket. -/
  | keyName
  /-- The sign of the default value. -/
  | defaultName
  /-- The name of a value, behind the opening quote. -/
  | quotedName
  /-- The equals sign behind the name of a value. -/
  | assignment
  /-- The type tag. -/
  | typeTag
  /-- The payload of a string. -/
  | stringPayload
  /-- The payload of a doubleword. -/
  | dwordPayload
  /-- The payload of a list of bytes. -/
  | hexPayload
  /-- Nothing: the value is complete and is to be set. -/
  | writing
  deriving DecidableEq, Repr

/-- An importer with lines of type `ρ`, a store of type `σ` and its handles of
type `κ`. -/
structure Importer (ρ σ κ : Type) where
  /-- The lines that are left. -/
  lines : ρ
  /-- The store. -/
  store : σ
  /-- The current line. -/
  line : Text := []
  /-- What is read next. -/
  state : ImportState := .header
  /-- The handle of the open key. -/
  key : Option κ := none
  /-- The name of the value, nothing for the default value. -/
  valueName : Option Text := none
  /-- The declared type of the value. -/
  dataType : ValueType := .none
  /-- The data that is ready to be set. -/
  staged : Option Bytes := none
  /-- The dialect of the header, once it has been read. -/
  dialect : Option Dialect := none
  /-- What has been done so far. -/
  report : ImportReport

namespace Importer

variable {ρ σ κ : Type} [LineSupply ρ]

/-- Go to a state. -/
def enter (m : Importer ρ σ κ) (state : ImportState) : Importer ρ σ κ :=
  { m with state := state }

/-- Note problems of the current line. -/
def note (m : Importer ρ σ κ) (kinds : List DiagnosticKind) : Importer ρ σ κ :=
  let line := LineSupply.lineNumber m.lines
  let noted := kinds.map fun kind => Diagnostic.mk line kind
  { m with report := { m.report with diagnostics := m.report.diagnostics ++ noted } }

/-- Give the rest of the current line up because of a problem. -/
def giveUp (m : Importer ρ σ κ) (kind : DiagnosticKind) : Importer ρ σ κ :=
  (m.note [kind]).enter .lineStart

/-- Give a payload up because of a problem. -/
def abandon (m : Importer ρ σ κ) (kind : DiagnosticKind) : Importer ρ σ κ :=
  { m with staged := none }.giveUp kind

/-- Take the next line as the current one.  The answer is whether there was
one, or the error of a failing read. -/
def fetch (m : Importer ρ σ κ) : Except ImportError Bool × Importer ρ σ κ :=
  match LineSupply.next m.lines with
  | (.ok (some line), rest) =>
      (.ok true,
       { m with
         lines := rest
         line := line
         report := { m.report with lines := LineSupply.lineNumber rest } })
  | (.ok none, rest) => (.ok false, { m with lines := rest })
  | (.error message, rest) => (.error (.io message), { m with lines := rest })

/-- A fetched line makes the supply smaller and changes no state. -/
theorem size_fetch {m m' : Importer ρ σ κ} (h : m.fetch = (.ok true, m')) :
    LineSupply.size m'.lines < LineSupply.size m.lines ∧ m'.state = m.state := by
  unfold fetch at h
  split at h
  next line rest hnext => cases h; exact ⟨LineSupply.size_next hnext, rfl⟩
  · cases h
  · cases h

variable [RegistryStore σ κ]

/-- Close the open key, if there is one, and forget the name of a value. -/
def closeKey (m : Importer ρ σ κ) : Importer ρ σ κ :=
  match m.key with
  | none => { m with valueName := none }
  | some key =>
      { m with store := RegistryStore.closeKey m.store key, key := none, valueName := none }

/-- Ask the store to open the key of a path. -/
def requestKey (store : σ) (path : Text) : Except StoreError κ × σ :=
  match RegistryStore.resolveRoot (κ := κ) store path with
  | some (root, below) => RegistryStore.openKey store root below
  | none => (.error (.unknownRootKey path), store)

/-- A path that begins with no root key is not passed on to the store. -/
theorem requestKey_of_no_root {store : σ} {path : Text}
    (h : RegistryStore.resolveRoot (κ := κ) store path = none) :
    requestKey (κ := κ) store path = (.error (.unknownRootKey path), store) := by
  simp only [requestKey, h]

/-- Behind a root key the store is asked for the rest of the path. -/
theorem requestKey_of_root {store : σ} {path below : Text} {root : RootKey}
    (h : RegistryStore.resolveRoot (κ := κ) store path = some (root, below)) :
    requestKey store path = RegistryStore.openKey store root below := by
  simp only [requestKey, h]

/-- Close the open key and open the key of a path.  The answer is whether that
key is open now; a refusal is noted. -/
def openKey (m : Importer ρ σ κ) (path : Text) : Bool × Importer ρ σ κ :=
  let closed := m.closeKey
  match requestKey closed.store path with
  | (.ok key, store) =>
      (true,
       { closed with
         store := store
         key := some key
         report := { closed.report with keysOpened := closed.report.keysOpened + 1 } })
  | (.error cause, store) =>
      (false, { closed with store := store }.note [.keyOpenFailed path cause])

/-- Close the open key and let go of everything the run held. -/
def finish (m : Importer ρ σ κ) : Importer ρ σ κ :=
  let closed := m.closeKey
  { closed with staged := none, line := [], lines := LineSupply.close closed.lines }

end Importer

end RegistryText
