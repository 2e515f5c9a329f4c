import RegistryText.Proofs.Import.Obey

/-!
# Invariants of turns

A turn is made of a few things: it takes lines, notes problems, and calls the
store.  A property that survives each of them, and that looks at nothing within a
line, is an `Invariant`; **it holds at every moment that a loop visits, if it holds
at first** (`Invariant.visits`).

What holds of the lines alone is an invariant if it survives that a line is taken
(`invariant_lines`).
-/

namespace RegistryText.Importer

variable {ρ σ κ : Type} [LineSupply ρ] [RegistryStore σ κ]

/-- A property of importers that survives what a turn is made of. -/
structure Invariant (Holds : Importer ρ σ κ → Prop) : Prop where
  enter : ∀ {m} (state : ImportState), Holds m → Holds (m.enter state)
  settled : ∀ {m m'}, Holds m → m'.anew m'.state = m.anew m.state → Holds m'
  named : ∀ {m} (d : Dialect), Holds m → Holds (m.named d)
  note : ∀ {m} (kinds : List DiagnosticKind), Holds m → Holds (m.note kinds)
  openKey : ∀ {m} (path : Text), Holds m → Holds (m.openKey path).2
  write : ∀ {m} (w : KeyWrite), Holds m → Holds (m.write w)
  fetch : ∀ {m}, Holds m → Holds m.fetch.2

/-- What survives that a line is taken is an invariant of the lines. -/
theorem invariant_lines (Holds : ρ → Prop)
    (hnext : ∀ lines, Holds lines → Holds (LineSupply.next lines).2) :
    Invariant fun m : Importer ρ σ κ => Holds m.lines where
  enter _ h := h
  settled h hsame := (anew_eq_iff.mp hsame).1 ▸ h
  named _ h := h
  note _ h := h
  openKey {m} path h := (lines_openKey m path).symm ▸ h
  write {m} w h := (lines_write m w).symm ▸ h
  fetch {m} h := (lines_fetch (m := m) rfl).symm ▸ hnext m.lines h

namespace Invariant

variable {Holds : Importer ρ σ κ → Prop} {m m' : Importer ρ σ κ}

/-- What is known of a line is no part of an invariant. -/
theorem anew (hinv : Invariant Holds) (state : ImportState) (h : Holds m) :
    Holds (m.anew state) :=
  hinv.settled (hinv.enter state h) rfl

/-- A fetched line keeps an invariant. -/
theorem of_fetch (hinv : Invariant Holds) (h : Holds m) {answer : Except ImportError Bool}
    (hfetch : m.fetch = (answer, m')) : Holds m' := by
  have hfetched := hinv.fetch h
  rwa [hfetch] at hfetched

/-- So does a list that is gathered, by induction over its lines. -/
theorem gather (hinv : Invariant Holds) (h : Holds m) (bytes : Bytes) :
    Holds (m.gather bytes).2 := by
  fun_induction Importer.gather m bytes with
  | case1 m bytes e m' hfetch | case2 m bytes m' hfetch
  | case4 m bytes m' hfetch | case5 m bytes m' hfetch => exact hinv.of_fetch h hfetch
  | case3 m bytes m' hfetch hless hcomment ih
  | case6 m bytes m' hfetch hless hlist more hread ih => exact ih (hinv.of_fetch h hfetch)

/-- So does a statement that is carried out. -/
theorem carryOut (hinv : Invariant Holds) (h : Holds m) (statement : Statement) :
    Holds (m.carryOut statement).2 := by
  cases statement with
  | nothing => exact h
  | key path => exact hinv.openKey path h
  | entry path w => exact hinv.write w (hinv.openKey path h)
  | value w => exact hinv.write w h
  | fault kind => exact hinv.note [kind] h
  | list name type bytes =>
      have hgathered := hinv.gather h bytes
      simp only [Importer.carryOut]
      revert hgathered
      rcases m.gather bytes with ⟨ending, m'⟩
      intro hgathered
      cases ending with
      | complete bytes => exact hinv.write _ hgathered
      | malformed | missing => exact hinv.note _ hgathered
      | failed e => exact hinv.enter _ hgathered

/-- **So does a line that is obeyed.** -/
theorem obey (hinv : Invariant Holds) (h : Holds m) (r : Reading) : Holds (m.obey r).2 :=
  hinv.carryOut (hinv.note _ h) r.statement

/-- So does the header. -/
theorem headerStep (hinv : Invariant Holds) (h : Holds m) : Holds m.headerStep.2 := by
  have hclassify : ∀ {m : Importer ρ σ κ}, Holds m → Holds m.classify.2 := by
    intro m h
    have hnamed := hinv.named (Dialect.ofHeader m.line) h
    simp only [classify]
    split
    · exact hnamed
    · split <;> exact hinv.enter _ hnamed
  unfold Importer.headerStep
  split
  next e m' hfetch => exact hinv.of_fetch h hfetch
  next m' hfetch => exact hclassify (hinv.of_fetch h hfetch)
  next m' hfetch => exact hclassify (hinv.settled (hinv.of_fetch h hfetch) rfl)

/-- An invariant survives a turn. -/
theorem turn (hinv : Invariant Holds) (h : Holds m) (hm : m.Between) (place : Nat) :
    Holds (m.turn place).2 := by
  rcases hm with hheader | hfront
  · rw [turn_header hheader]
    exact hinv.headerStep h
  rcases hfetch : m.fetch with ⟨e | _ | _, m'⟩
  · rw [turn_of_error hfront hfetch]
    exact hinv.of_fetch h hfetch
  · rw [turn_of_end hfront hfetch]
    exact hinv.of_fetch h hfetch
  · have hobeyed := hinv.obey (hinv.anew m.front (hinv.of_fetch h hfetch))
      (.ofBody m.front m'.line)
    exact hinv.settled hobeyed (congrArg Prod.snd (turn_of_line hfront hfetch place))

/-- **An invariant holds at every moment that a loop visits**, in front of the header
or of a line of the body. -/
theorem visits (hinv : Invariant Holds) (h : Holds m) (hm : m.Between) {place place' : Nat}
    (hvisits : m.Visits place m' place') : Holds m' ∧ m'.Between := by
  have hturn : ∀ {m m' : Importer ρ σ κ} {place next : Nat}, Holds m ∧ m.Between →
      m.turn place = (.proceed next, m') → Holds m' ∧ m'.Between := by
    rintro m m' place next ⟨h, hm⟩ hturn
    have hafter := hinv.turn h hm place
    rw [hturn] at hafter
    exact ⟨hafter, Or.inr (front_turn hm hturn)⟩
  exact hvisits.induct hturn ⟨h, hm⟩

/-- An invariant survives a loop, by induction on its turns. -/
theorem loop (hinv : Invariant Holds) (h : Holds m) (hm : m.Between) (place : Nat) :
    Holds (m.loop place).2 := by
  induction m, place using loop_induct with
  | goesOn m place next m' hturn ih =>
      have hturned := hinv.turn h hm place
      rw [hturn] at hturned
      rw [loop_of_turn hturn]
      exact ih hturned (Or.inr (front_turn hm hturn))
  | finished m place m' hturn =>
      rw [loop_of_last_turn hturn]
      simpa [hturn] using hinv.turn h hm place
  | failed m place e m' hturn =>
      rw [loop_of_failed_turn hturn]
      simpa [hturn] using hinv.turn h hm place

end Invariant

end RegistryText.Importer
