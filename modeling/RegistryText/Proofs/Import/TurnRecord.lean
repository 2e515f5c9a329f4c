import RegistryText.Proofs.Import.Diagnostics
import RegistryText.Proofs.Import.Handles

/-!
# Records of turns

What an import can be seen to do is to call its store and to note problems.  The
record of a turn says which calls the turn has made, what it has noted, and which line it
took last; `turns` lists the records of all turns of a loop.

**Nothing is missing from the records**: a turn makes the calls of its record
(`calls_record`), and the diagnostics of a loop are those of its turns, one turn after the
other (`diagnostics_loop`).
-/

namespace RegistryText

/-- What a turn can be seen to do. -/
structure TurnRecord (κ : Type) where
  /-- The number of the last line that the turn has taken. -/
  line : Nat
  /-- The calls of the store. -/
  calls : List (StoreCall κ)
  /-- The problems that have been noted. -/
  noted : List Diagnostic

namespace Importer

variable {ρ σ κ : Type} [LineSupply ρ]

/-- The record of a turn that has led from one importer to another. -/
def record (m m' : Importer ρ (RecordingStore σ κ) κ) : TurnRecord κ where
  line := LineSupply.lineNumber m'.lines
  calls := m'.store.calls.drop m.store.calls.length
  noted := m'.report.diagnostics.drop m.report.diagnostics.length

variable [RegistryStore σ κ] {m m' : Importer ρ (RecordingStore σ κ) κ} {place next : Nat}

/-- The records of the turns of a loop. -/
def turns (m : Importer ρ (RecordingStore σ κ) κ) (place : Nat) : List (TurnRecord κ) :=
  match h : m.turn place with
  | (.proceed next, m') =>
      have : m'.remaining < m.remaining := (rank_turn h).2
      m.record m' :: m'.turns next
  | (.finished, m') => [m.record m']
  | (.failed _, m') => [m.record m']
termination_by m.remaining

theorem turns_of_turn (h : m.turn place = (.proceed next, m')) :
    m.turns place = m.record m' :: m'.turns next := by
  rw [turns]
  split <;> simp_all

theorem turns_of_last_turn (h : m.turn place = (.finished, m')) :
    m.turns place = [m.record m'] := by
  rw [turns]
  split <;> simp_all

theorem turns_of_failed_turn {e : ImportError} (h : m.turn place = (.failed e, m')) :
    m.turns place = [m.record m'] := by
  rw [turns]
  split <;> simp_all

/-- A turn keeps what outlasts the calls. -/
theorem turn_keeps {τ μ : Type} [RegistryStore τ μ] {Holds : τ → Option μ → Prop}
    (hcalls : KeptByCalls Holds) {n : Importer ρ τ μ} (h : Holds n.store n.key) (place : Nat) :
    Holds (n.turn place).2.store (n.turn place).2.key := by
  fun_induction turn n place with
  | case1 n place next n' hstep hless hrank | case3 n place n' hstep | case4 n place e n' hstep =>
      have hkept := step_keeps hcalls h place
      rwa [hstep] at hkept
  | case2 n place next n' hstep hless hrank ih =>
      have hkept := step_keeps hcalls h place
      rw [hstep] at hkept
      exact ih hkept

/-- The calls of a turn are those of its record. -/
theorem calls_record (m : Importer ρ (RecordingStore σ κ) κ) (place : Nat) :
    (m.turn place).2.store.calls = m.store.calls ++ (m.record (m.turn place).2).calls := by
  have hprefix := turn_keeps (keptByCalls_extends m.store.calls) (List.prefix_refl _) place
  exact (List.prefix_iff_eq_append.mp hprefix).symm

/-- What a turn notes is in its record. -/
theorem diagnostics_record (hcount : LineSupply.Counts ρ) (hm : m.Between) (place : Nat) :
    (m.turn place).2.report.diagnostics =
      m.report.diagnostics ++ (m.record (m.turn place).2).noted := by
  obtain ⟨-, new, hnew, -⟩ := noted_turn hcount hm place
  rw [record, hnew, List.drop_left]

/-- **The diagnostics of a loop are those of its turns**, one turn after the other. -/
theorem diagnostics_loop (hcount : LineSupply.Counts ρ) (hm : m.Between) (place : Nat) :
    (m.loop place).2.report.diagnostics =
      m.report.diagnostics ++ (m.turns place).flatMap fun r => r.noted := by
  induction m, place using loop_induct with
  | goesOn m place next m' hfirst ih =>
      have hnoted := diagnostics_record hcount hm place
      rw [hfirst] at hnoted
      rw [loop_of_turn hfirst, turns_of_turn hfirst, ih (Or.inr (front_turn hm hfirst)), hnoted,
        List.flatMap_cons, List.append_assoc]
  | finished m place m' hlast =>
      rw [loop_of_last_turn hlast, turns_of_last_turn hlast]
      simpa [hlast] using diagnostics_record hcount hm place
  | failed m place e m' hlast =>
      rw [loop_of_failed_turn hlast, turns_of_failed_turn hlast]
      simpa [hlast] using diagnostics_record hcount hm place

end Importer

end RegistryText
