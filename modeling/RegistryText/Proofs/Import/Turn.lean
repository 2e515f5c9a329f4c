import RegistryText.Import.Run

/-!
# Turns of an import

Between two lines an importer is in one of three states: it waits for the
header, for a line of the Windows 3.1 dialect, or for a line of a structured
file.  A *turn* is what it does from one such moment to the next: it takes a
line, goes through it step by step, and takes on the way the lines that continue
a list of bytes.  A turn may also end the loop.

**The loop is one turn after the other** (`loop_of_turn`), and `Visits` lists the
moments between them: `m.Visits place m' place'` says that the loop that goes on
as `m` comes to stand in front of a line as `m'`.  The turn behind which the loop
goes on no more is the last one (`TakesLastTurn`).
-/

namespace RegistryText.Importer

variable {ρ ρ' σ κ : Type} [LineSupply ρ] [RegistryStore σ κ]

/-- Make steps up to the next moment in front of a line, or to the end of the
loop. -/
def turn (m : Importer ρ σ κ) (place : Nat) : Progress × Importer ρ σ κ :=
  match h : m.step place with
  | (.proceed next, m') =>
      have : m'.remaining < m.remaining := remaining_step h
      if m'.state.rank = 0 then (.proceed next, m') else m'.turn next
  | (.finished, m') => (.finished, m')
  | (.failed e, m') => (.failed e, m')
termination_by m.remaining

variable {m m' m'' : Importer ρ σ κ} {place next : Nat}

/-- A step to the front of a line is the last one of its turn. -/
theorem turn_of_last (h : m.step place = (.proceed next, m')) (hrank : m'.state.rank = 0) :
    m.turn place = (.proceed next, m') := by
  rw [turn]
  split <;> simp_all

/-- A step within a line is followed by the rest of its turn. -/
theorem turn_of_proceed (h : m.step place = (.proceed next, m')) (hrank : m'.state.rank ≠ 0) :
    m.turn place = m'.turn next := by
  rw [turn]
  split <;> simp_all

theorem turn_of_finished (h : m.step place = (.finished, m')) :
    m.turn place = (.finished, m') := by
  rw [turn]
  split <;> simp_all

theorem turn_of_failed {e : ImportError} (h : m.step place = (.failed e, m')) :
    m.turn place = (.failed e, m') := by
  rw [turn]
  split <;> simp_all

/-- A turn that does not end the loop ends in front of a line, and closer to the
end of the loop. -/
theorem rank_turn (h : m.turn place = (.proceed next, m')) :
    m'.state.rank = 0 ∧ m'.remaining < m.remaining := by
  fun_induction turn m place with
  | case1 m place next' m'' hstep hless hrank =>
      cases h
      exact ⟨hrank, hless⟩
  | case2 m place next' m'' hstep hless hrank ih =>
      obtain ⟨hfront, hrest⟩ := ih h
      exact ⟨hfront, Nat.lt_trans hrest hless⟩
  | case3 m place m'' hstep => cases h
  | case4 m place e m'' hstep => cases h

/-- **The loop goes on behind a turn.** -/
theorem loop_of_turn (h : m.turn place = (.proceed next, m')) : m.loop place = m'.loop next := by
  fun_induction turn m place with
  | case1 m place next' m'' hstep hless hrank =>
      cases h
      exact loop_of_proceed hstep
  | case2 m place next' m'' hstep hless hrank ih => exact (loop_of_proceed hstep).trans (ih h)
  | case3 m place m'' hstep => cases h
  | case4 m place e m'' hstep => cases h

/-- The loop ends with a turn that meets the end of the lines. -/
theorem loop_of_last_turn (h : m.turn place = (.finished, m')) : m.loop place = (.ok (), m') := by
  fun_induction turn m place with
  | case1 m place next' m'' hstep hless hrank => cases h
  | case2 m place next' m'' hstep hless hrank ih => exact (loop_of_proceed hstep).trans (ih h)
  | case3 m place m'' hstep =>
      cases h
      exact loop_of_finished hstep
  | case4 m place e m'' hstep => cases h

/-- The loop ends with a turn that fails. -/
theorem loop_of_failed_turn {e : ImportError} (h : m.turn place = (.failed e, m')) :
    m.loop place = (.error e, m') := by
  fun_induction turn m place with
  | case1 m place next' m'' hstep hless hrank => cases h
  | case2 m place next' m'' hstep hless hrank ih => exact (loop_of_proceed hstep).trans (ih h)
  | case3 m place m'' hstep => cases h
  | case4 m place e' m'' hstep =>
      cases h
      exact loop_of_failed hstep

/-- The moments in front of a line in the loop of an importer. -/
inductive Visits : Importer ρ σ κ → Nat → Importer ρ σ κ → Nat → Prop
  | here (m : Importer ρ σ κ) (place : Nat) : Visits m place m place
  | turn {m m' m'' : Importer ρ σ κ} {place next place' : Nat}
      (first : m.turn place = (.proceed next, m')) (rest : Visits m' next m'' place') :
      Visits m place m'' place'

/-- The loop of an importer comes to stand as `n`, and does not go on behind the turn that it
takes there. -/
structure TakesLastTurn (m n : Importer ρ σ κ) (place : Nat) : Prop where
  visits : m.Visits 0 n place
  last : ∀ next n', n.turn place ≠ (.proceed next, n')

/-- The loop goes on from every moment that it visits. -/
theorem Visits.loop_eq {place' : Nat} (h : m.Visits place m' place') :
    m.loop place = m'.loop place' := by
  induction h with
  | here m place => rfl
  | turn first rest ih => exact (loop_of_turn first).trans ih

/-- What holds at first, and again behind every turn that does not end the loop,
holds at every moment visited. -/
theorem Visits.induct {Holds : Importer ρ σ κ → Prop} {place' : Nat}
    (hturn : ∀ {m m' : Importer ρ σ κ} {place next : Nat}, Holds m →
      m.turn place = (.proceed next, m') → Holds m')
    (h : m.Visits place m' place') (hm : Holds m) : Holds m' := by
  induction h with
  | here m place => exact hm
  | turn first rest ih => exact ih (hturn hm first)

/-- Induction on the turns of a loop. -/
theorem loop_induct {motive : Importer ρ σ κ → Nat → Prop}
    (goesOn : ∀ (m : Importer ρ σ κ) (place next : Nat) (m' : Importer ρ σ κ),
      m.turn place = (.proceed next, m') → motive m' next → motive m place)
    (finished : ∀ (m : Importer ρ σ κ) (place : Nat) (m' : Importer ρ σ κ),
      m.turn place = (.finished, m') → motive m place)
    (failed : ∀ (m : Importer ρ σ κ) (place : Nat) (e : ImportError) (m' : Importer ρ σ κ),
      m.turn place = (.failed e, m') → motive m place)
    (m : Importer ρ σ κ) (place : Nat) : motive m place := by
  induction hremaining : m.remaining using Nat.strongRecOn generalizing m place with
  | ind remaining ih =>
      rcases hturn : m.turn place with ⟨progress, m'⟩
      cases progress with
      | proceed next =>
          have hless := (rank_turn hturn).2
          exact goesOn m place next m' hturn (ih _ (hremaining ▸ hless) m' next rfl)
      | finished => exact finished m place m' hturn
      | failed e => exact failed m place e m' hturn

omit [LineSupply ρ] in
/-- What closing the open key leaves depends on the store and the key alone. -/
theorem store_closeKey_congr {n : Importer ρ' σ κ} (hkey : n.key = m.key)
    (hstore : n.store = m.store) : n.closeKey.store = m.closeKey.store := by
  unfold closeKey
  rw [hkey]
  cases m.key with
  | none => exact hstore
  | some key => exact congrArg (fun store => RegistryStore.closeKey store key) hstore

/-- A run leaves the store that its loop has left, with the open key closed. -/
theorem store_run (m : Importer ρ σ κ) : m.run.2.store = (m.loop 0).2.closeKey.store := by
  simp only [run]
  split <;> rfl

end RegistryText.Importer
