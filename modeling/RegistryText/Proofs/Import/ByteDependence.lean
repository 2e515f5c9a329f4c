import RegistryText.Proofs.Import.Recasting
import RegistryText.Proofs.Lines.File
import RegistryText.Store.Memory

/-!
# Imports depend on the bytes alone

A file is given as bytes, but an importer sees a source: its bytes come in
pieces of any sizes, with interruptions between them, the first two are taken
apart to find the encoding, and a buffer of some size holds what has been read.
None of this can be seen in the result.

`viewOfBytes` says what the result is, from the bytes only: the lines are cut
out of all units at once, decoded and listed.  **Every source that delivers the
bytes leads to this result** (`importView_of_delivers`), with any capacity of the
buffer.
-/

namespace RegistryText

/-- What can be seen of an import that has been run. -/
structure ImportView (σ : Type) where
  outcome : Except ImportError Unit
  state : ImportState
  dialect : Option Dialect
  report : ImportReport
  store : σ

namespace Importer

variable {ρ σ κ : Type}

/-- What can be seen of a run. -/
def view (ran : Except ImportError Unit × Importer ρ σ κ) : ImportView σ where
  outcome := ran.1
  state := ran.2.state
  dialect := ran.2.dialect
  report := ran.2.report
  store := ran.2.store

/-- An importer of lines that are given as a list. -/
def ofLines (encoding : FileEncoding) (lines : List Text) (store : σ) :
    Importer ListedLines σ κ where
  lines := ⟨lines, 0⟩
  store := store
  report := { encoding := encoding }

/-- A run looks the same whichever of two alike supplies gives the lines. -/
theorem view_run_of_alike [LineSupply ρ] [RegistryStore σ κ] {lines : ListedLines}
    {R : ρ → ListedLines → Prop} (hR : LineSupply.Alike R) (m : Importer ρ σ κ)
    (hlines : R m.lines lines) :
    view (m.recast (fun store => store) lines m.report.encoding).run = view m.run := by
  obtain ⟨rest, -, hrun⟩ := run_recast m.report.encoding hR
    RegistryStore.morphism_id hlines
  rw [hrun]
  have hencoding := m.encoding_run
  simp only [view, recast, ← hencoding]

/-- The reader of an importer that has been made from the first two bytes lists
the lines of the file. -/
theorem lists_ofFirstBytes (first second : UInt8) {rest : Source} {bytes : Bytes}
    (h : rest.Delivers bytes) (store : σ) (options : ImportOptions) :
    (ofFirstBytes (κ := κ) first second rest store options).lines.Lists
      ⟨fileLines options.page (first :: second :: bytes), 0⟩ := by
  cases hencoding : FileEncoding.detect first second with
  | narrow =>
      simp only [ofFirstBytes, fileLines, textBytes, fileEncoding, hencoding]
      refine ⟨rfl, Or.inr ⟨_, LineReader.faces_append_ofSource h .narrow options.page
        options.capacity [first, second], rfl⟩⟩
  | wide =>
      simp only [ofFirstBytes, fileLines, textBytes, fileEncoding, hencoding]
      refine ⟨rfl, Or.inr ⟨_, LineReader.faces_ofSource h .wide options.page options.capacity, rfl⟩⟩

theorem lineNumber_ofFirstBytes (first second : UInt8) (rest : Source) (store : σ)
    (options : ImportOptions) :
    (ofFirstBytes (κ := κ) first second rest store options).lines.lineNumber = 0 := by
  cases hencoding : FileEncoding.detect first second <;>
    simp only [ofFirstBytes, hencoding] <;> rfl

/-- An importer is made from the first two bytes of a source and from what it is behind them,
in however many pieces they come. -/
theorem ofSource_of_reads {P : Source → Bytes → Prop}
    (hread : ∀ {source bytes count}, P source bytes → bytes ≠ [] → 0 < count →
      ∃ given left rest, source.read count = (.ok given, rest) ∧ bytes = given ++ left ∧
        given.length ≤ count ∧ given ≠ [] ∧ P rest left)
    {source : Source} {first second : UInt8} {bytes : Bytes}
    (h : P source (first :: second :: bytes)) (store : σ) (options : ImportOptions) :
    ∃ rest, P rest bytes ∧ ofSource (κ := κ) source store options =
      .ok (ofFirstBytes first second rest store options) := by
  obtain ⟨given, left, rest, hgiven, hbytes, hlength, hne, hrest⟩ :=
    hread h (List.cons_ne_nil _ _) Nat.two_pos
  match given with
  | [] => exact absurd rfl hne
  | [_] =>
      cases hbytes
      obtain ⟨given, left, rest', hgiven', hbytes, hlength, hne, hrest'⟩ :=
        hread hrest (List.cons_ne_nil _ _) Nat.one_pos
      match given with
      | [] => exact absurd rfl hne
      | [_] =>
          cases hbytes
          exact ⟨rest', hrest', by simp [ofSource, hgiven, hgiven']⟩
      | _ :: _ :: _ => simp at hlength
  | [_, _] =>
      cases hbytes
      exact ⟨rest, hrest, by simp [ofSource, hgiven]⟩
  | _ :: _ :: _ :: _ => simp at hlength

/-- An importer of a source that delivers two bytes at least is made from these
two and from a source of the others, in however many pieces they come. -/
theorem ofSource_of_delivers {source : Source} {first second : UInt8} {bytes : Bytes}
    (h : source.Delivers (first :: second :: bytes)) (store : σ) (options : ImportOptions) :
    ∃ rest, rest.Delivers bytes ∧ ofSource (κ := κ) source store options =
      .ok (ofFirstBytes first second rest store options) := by
  refine ofSource_of_reads ?_ h store options
  intro source bytes count h hbytes hcount
  obtain ⟨given, left, rest, hread, rfl, hlength, hempty, hrest⟩ := h.read hcount
  have hne : given ≠ [] := by
    rintro rfl
    exact hbytes (hempty rfl)
  exact ⟨given, left, rest, hread, rfl, hlength, hne, hrest hne⟩

/-- A source that delivers two bytes at least has an importer. -/
theorem exists_of_delivers {source : Source} {bytes : Bytes} (h : source.Delivers bytes)
    (hlong : 2 ≤ bytes.length) (store : σ) (options : ImportOptions) :
    ∃ m : Importer LineReader σ κ, ofSource source store options = .ok m := by
  match bytes, hlong with
  | first :: second :: behind, _ =>
      obtain ⟨rest, -, hmade⟩ := ofSource_of_delivers (κ := κ) h store options
      exact ⟨_, hmade⟩

/-- A source of fewer than two bytes is too short. -/
theorem ofSource_of_short {source : Source} {bytes : Bytes} (h : source.Delivers bytes)
    (hshort : bytes.length < 2) (store : σ) (options : ImportOptions) :
    ofSource (κ := κ) source store options = .error (.inputTooShort bytes.length) := by
  obtain ⟨given, left, rest, hread, rfl, hlength, hempty, hrest⟩ := h.read Nat.two_pos
  match given with
  | [] =>
      obtain rfl := hempty rfl
      simp [ofSource, hread]
  | [_] =>
      simp only [List.length_append, List.length_cons, List.length_nil] at hshort ⊢
      obtain rfl : left = [] := List.eq_nil_of_length_eq_zero (by omega)
      obtain ⟨given, left, rest', hread', hbytes, -⟩ :=
        (hrest (by simp)).read Nat.one_pos
      obtain ⟨rfl, rfl⟩ := List.append_eq_nil_iff.mp hbytes.symm
      simp [ofSource, hread, hread']
  | _ :: _ :: _ =>
      simp only [List.length_append, List.length_cons] at hshort
      omega

/-- An importer of a source that delivers a file is new and lists the lines of the
file. -/
theorem listed_of_delivers {source : Source} {bytes : Bytes} (h : source.Delivers bytes)
    {store : σ} {options : ImportOptions} {m : Importer LineReader σ κ}
    (hm : ofSource source store options = .ok m) :
    m.lines.Lists ⟨fileLines options.page bytes, 0⟩ ∧ m.state = .header ∧ m.key = none ∧
      m.dialect = none ∧ m.store = store ∧ m.report = { encoding := fileEncoding bytes } := by
  by_cases hshort : bytes.length < 2
  · rw [ofSource_of_short h hshort] at hm
    cases hm
  match bytes with
  | [] => simp at hshort
  | [_] => simp at hshort
  | first :: second :: bytes =>
      obtain ⟨rest, hrest, heq⟩ := ofSource_of_delivers (κ := κ) h store options
      rw [heq] at hm
      cases hm
      exact ⟨lists_ofFirstBytes first second hrest store options, rfl, rfl, rfl, rfl, rfl⟩

end Importer

section View

variable {σ κ : Type} [RegistryStore σ κ]

/-- What can be seen of an import of a source, or why there is no importer. -/
def importView (source : Source) (store : σ) (options : ImportOptions) :
    Except ImportError (ImportView σ) :=
  (Importer.ofSource (κ := κ) source store options).map fun m => Importer.view m.run

/-- What can be seen of an import of bytes: of one whose lines are all there
from the beginning. -/
def viewOfBytes (bytes : Bytes) (store : σ) (page : CodePage) : Except ImportError (ImportView σ) :=
  if bytes.length < 2 then .error (.inputTooShort bytes.length)
  else .ok (Importer.view
    (Importer.ofLines (κ := κ) (fileEncoding bytes) (fileLines page bytes) store).run)

/-- **An import of a source is one of the bytes that it delivers.** -/
theorem importView_of_delivers {source : Source} {bytes : Bytes} (h : source.Delivers bytes)
    (store : σ) (options : ImportOptions) :
    importView source store options = viewOfBytes bytes store options.page := by
  by_cases hshort : bytes.length < 2
  · rw [importView, Importer.ofSource_of_short h hshort, viewOfBytes, if_pos hshort]
    rfl
  match bytes with
  | [] => simp at hshort
  | [_] => simp at hshort
  | first :: second :: bytes =>
      obtain ⟨rest, hrest, heq⟩ := Importer.ofSource_of_delivers (κ := κ) h store options
      have hlists := Importer.lists_ofFirstBytes (κ := κ) first second hrest store options
      rw [importView, heq, viewOfBytes, if_neg hshort]
      exact congrArg Except.ok (Importer.view_run_of_alike LineReader.alike_listed _ hlists).symm

/-- A run of an importer looks like one of the lines of its file. -/
theorem Importer.view_run_of_delivers {source : Source} {bytes : Bytes} (h : source.Delivers bytes)
    (hlength : 2 ≤ bytes.length) {store : σ} {options : ImportOptions}
    {m : Importer LineReader σ κ} (hm : Importer.ofSource source store options = .ok m) :
    Importer.view m.run = Importer.view (Importer.ofLines (κ := κ) (fileEncoding bytes)
      (fileLines options.page bytes) store).run := by
  have hview := importView_of_delivers (κ := κ) h store options
  rw [importView, hm, viewOfBytes, if_neg (Nat.not_lt.mpr hlength)] at hview
  exact Except.ok.inj hview

end View

end RegistryText
