import RegistryText.Proofs.Import.Lockstep
import RegistryText.Proofs.Lines.Listed

/-!
# Imports of files that differ in some lines

Two importers stand beside each other when they hold the same key and store and have
noted the same problems since some moment, though the one may have taken more lines
before it.  They stay so while they take the same lines (`lockstep_beside`).

The supplies of the two may be a reader and the list of its lines
(`LineSupply.Alike.shifted`), or two lists that differ in their ends, until the
common front of them is used up (`shifted_ends`).
-/

namespace RegistryText

/-- A relation between supplies that give the same lines, as long as `Open` holds of
those that are left to the first one; it has given `shift` lines more. -/
structure LineSupply.Shifted {ρ ρ' : Type} [LineSupply ρ] [LineSupply ρ'] (Open : ρ → Prop)
    (shift : Nat) (S : ρ → ρ' → Prop) : Prop where
  lineNumber : ∀ {lines lines'}, S lines lines' →
    LineSupply.lineNumber lines = LineSupply.lineNumber lines' + shift
  back : ∀ {lines}, Open (LineSupply.next lines).2 → Open lines
  next : ∀ {lines lines'}, S lines lines' → Open (LineSupply.next lines).2 →
    (LineSupply.next lines').1 = (LineSupply.next lines).1 ∧
      S (LineSupply.next lines).2 (LineSupply.next lines').2

/-- Alike supplies are not shifted. -/
theorem LineSupply.Alike.shifted {ρ ρ' : Type} [LineSupply ρ] [LineSupply ρ'] {S : ρ → ρ' → Prop}
    (hS : LineSupply.Alike S) : LineSupply.Shifted (fun _ => True) 0 S where
  lineNumber := hS.lineNumber
  back h := h
  next h _ := by
    obtain ⟨rest, hnext, hrest⟩ := hS.next h
    rw [hnext]
    exact ⟨rfl, hrest⟩

/-- Two lists with a common front. -/
def ListedLines.ForkAt (shift : Nat) (behind behind' : List Text) (lines lines' : ListedLines) :
    Prop :=
  lines.given = lines'.given + shift ∧
    ∃ front, lines.left = front ++ behind ∧ lines'.left = front ++ behind'

/-- Two lists give the same lines until their common front is used up. -/
theorem shifted_ends (shift : Nat) {behind behind' : List Text}
    (hend : behind = [] → behind' = []) :
    LineSupply.Shifted (fun lines : ListedLines => behind.length ≤ lines.left.length) shift
      (ListedLines.ForkAt shift behind behind') where
  lineNumber h := h.1
  back {lines} h := by
    obtain ⟨_ | ⟨line, left⟩, given⟩ := lines
    · exact h
    · exact Nat.le_succ_of_le h
  next := by
    rintro ⟨left, given⟩ ⟨left', given'⟩ ⟨hgiven, front, hleft, hleft'⟩ hopen
    subst hleft hleft' hgiven
    cases front with
    | cons line front => exact ⟨rfl, Nat.add_right_comm given' shift 1, front, rfl, rfl⟩
    | nil =>
        cases behind with
        | nil =>
            obtain rfl := hend rfl
            exact ⟨rfl, rfl, [], rfl, rfl⟩
        | cons line behind => exact absurd hopen (Nat.not_succ_le_self behind.length)

/-- Two lists that have given different numbers of lines and give the same from now on stay so
when they are closed. -/
theorem ListedLines.ForkAt.close {shift : Nat} {lines lines' : ListedLines}
    (h : ForkAt shift [] [] lines lines') :
    ForkAt shift [] [] (LineSupply.close lines) (LineSupply.close lines') :=
  ⟨h.1, [], rfl, rfl⟩

/-- The diagnostic of a line that has moved down. -/
def Diagnostic.movedDown (shift : Nat) (d : Diagnostic) : Diagnostic :=
  { d with line := d.line + shift }

namespace Importer

variable {ρ ρ' σ κ : Type}

/-- The importers hold the same and have noted the same problems, the one behind
`before`, the other behind `before'`. -/
structure Beside (S : ρ → ρ' → Prop) (shift : Nat) (before before' : List Diagnostic)
    (m : Importer ρ σ κ) (n : Importer ρ' σ κ) : Prop where
  lines : S m.lines n.lines
  state : n.state = m.state
  dialect : n.dialect = m.dialect
  key : n.key = m.key
  store : n.store = m.store
  noted : ∃ later, m.report.diagnostics = before ++ later.map (Diagnostic.movedDown shift) ∧
    n.report.diagnostics = before' ++ later

/-- Importers beside each other from the beginning, and with the same numbers of lines, have
noted the same. -/
theorem Beside.diagnostics_eq {S : ρ → ρ' → Prop} {m : Importer ρ σ κ} {n : Importer ρ' σ κ}
    (h : Beside S 0 [] [] m n) : n.report.diagnostics = m.report.diagnostics := by
  obtain ⟨later, hm, hn⟩ := h.noted
  have hstays : Diagnostic.movedDown 0 = id := rfl
  rw [hm, hn, hstays, List.map_id]

/-- Importers beside each other are twins. -/
theorem beside_eq_twins (S : ρ → ρ' → Prop) (shift : Nat) (before before' : List Diagnostic) :
    (Beside S shift before before' : Importer ρ σ κ → Importer ρ' σ κ → Prop) =
      Twins S fun d d' => ∃ later, d = before ++ later.map (Diagnostic.movedDown shift) ∧
        d' = before' ++ later := by
  funext m n
  refine propext ⟨fun h => ?_, fun h => ?_⟩
  · exact ⟨h.lines, h.state, h.dialect, h.key, h.store, h.noted⟩
  · exact ⟨h.lines, h.state, h.dialect, h.key, h.store, h.noted⟩

variable [LineSupply ρ] [LineSupply ρ'] {Open : ρ → Prop} {S : ρ → ρ' → Prop} {shift : Nat}
  {before before' : List Diagnostic} {m : Importer ρ σ κ} {n : Importer ρ' σ κ}
  [RegistryStore σ κ]

theorem Beside.finish (hclose : ∀ {lines lines'}, S lines lines' →
      S (LineSupply.close lines) (LineSupply.close lines'))
    (h : Beside S shift before before' m n) :
    Beside S shift before before' m.finish n.finish := by
  rw [beside_eq_twins] at h ⊢
  exact h.finish hclose

/-- **Importers beside each other take their turns together**, as long as their supplies
give the same lines. -/
theorem lockstep_beside (hS : LineSupply.Shifted Open shift S) (before before' : List Diagnostic) :
    Lockstep Open (Beside S shift before before' : Importer ρ σ κ → Importer ρ' σ κ → Prop) where
  toCompanions := by
    rw [beside_eq_twins]
    refine companions_twins ?_
    rintro lines lines' d d' kinds hlines ⟨later, rfl, rfl⟩
    refine ⟨later ++ kinds.map (Diagnostic.mk (LineSupply.lineNumber lines')), ?_, ?_⟩
    · simp [hS.lineNumber hlines, Diagnostic.movedDown, Function.comp_def]
    · rw [List.append_assoc]
  back := hS.back
  next h hopen := (hS.next h.lines hopen).1
  fetch {m n} h hopen := by
    obtain ⟨hanswer, hrest⟩ := hS.next h.lines hopen
    unfold fetch
    rcases hm : LineSupply.next m.lines with ⟨given, rest⟩
    rcases hn : LineSupply.next n.lines with ⟨given', rest'⟩
    rw [hm, hn] at hanswer hrest
    obtain rfl : given' = given := hanswer
    rcases given' with message | _ | line <;> exact { h with lines := hrest }

end Importer

end RegistryText
