import RegistryText.Lines.Supply

/-!
# Rounds of a loop

A loop goes round as long as its state has a successor.  `Rounds R n a b` says that
`n` rounds lead from `a` to `b`, one round being `R`.  What a loop computes is the
same before and behind a round, and it `EndsWithin` a number of rounds if it never
makes more of them and comes to a state that has no successor.

**A number that every round makes smaller bounds the rounds** (`endsWithin_of_lt`).  This is
how the loops of the line reader end: the doubling of its buffer
(`Capacity.endsWithin_grow`), the reads that are made again because they were
interrupted (`Source.endsWithin_readSegments`), and the reads until a line is found
(`LineReader.endsWithin_next`).
-/

namespace RegistryText

section Rounds

variable {α β : Type} {R : α → α → Prop} {n : Nat} {a b : α}

/-- A number of rounds of a loop, one of which is `R`. -/
inductive Rounds (R : α → α → Prop) : Nat → α → α → Prop
  | none (a : α) : Rounds R 0 a a
  | more {n : Nat} {a b c : α} (first : R a b) (rest : Rounds R n b c) : Rounds R (n + 1) a c

/-- A loop that computes `result` ends after at most `most` rounds. -/
structure EndsWithin (R : α → α → Prop) (result : α → β) (most : Nat) (a : α) : Prop where
  rounds_le : ∀ {n b}, Rounds R n a b → n ≤ most
  result_eq : ∀ {n b}, Rounds R n a b → result b = result a
  last : ∃ n b, Rounds R n a b ∧ ∀ c, ¬R b c

/-- Rounds that make a number smaller are no more than it. -/
theorem Rounds.add_le {left : α → Nat} (hround : ∀ a b, R a b → left b < left a)
    (h : Rounds R n a b) : n + left b ≤ left a := by
  induction h with
  | none a => omega
  | more first rest ih =>
      have := hround _ _ first
      omega

/-- What a round leaves as it is stays for all of them. -/
theorem Rounds.eq {f : α → β} (hround : ∀ a b, R a b → f b = f a) (h : Rounds R n a b) :
    f b = f a := by
  induction h with
  | none a => rfl
  | more first rest ih => exact ih.trans (hround _ _ first)

/-- Rounds that make a number smaller lead to a state without a successor. -/
theorem Rounds.exists_last {left : α → Nat} (hround : ∀ a b, R a b → left b < left a) (a : α) :
    ∃ n b, Rounds R n a b ∧ ∀ c, ¬R b c := by
  induction hleft : left a using Nat.strongRecOn generalizing a with
  | ind most ih =>
      by_cases hlast : ∃ b, R a b
      · obtain ⟨b, hb⟩ := hlast
        obtain ⟨n, c, hrest, hc⟩ := ih (left b) (hleft ▸ hround a b hb) b rfl
        exact ⟨n + 1, c, .more hb hrest, hc⟩
      · exact ⟨0, a, .none a, fun b hb => hlast ⟨b, hb⟩⟩

/-- **A number that every round makes smaller bounds the rounds.** -/
theorem endsWithin_of_lt {result : α → β} (left : α → Nat) (a : α)
    (hresult : ∀ a b, R a b → result b = result a) (hround : ∀ a b, R a b → left b < left a) :
    EndsWithin R result (left a) a where
  rounds_le h := Nat.le_of_add_right_le (h.add_le hround)
  result_eq h := h.eq hresult
  last := Rounds.exists_last hround a

end Rounds

namespace Capacity

/-- A capacity that is too small beside the pending units is doubled. -/
def Doubles (pending : Nat) (c c' : Capacity) : Prop :=
  c.units - pending < 3 ∧ c' = c.double

/-- The doubling of a buffer ends. -/
theorem endsWithin_grow (pending : Nat) (c : Capacity) :
    EndsWithin (Doubles pending) (grow · pending) (pending + 3 - c.units) c := by
  apply endsWithin_of_lt fun c : Capacity => pending + 3 - c.units
  · rintro c _ ⟨hsmall, rfl⟩
    show c.double.grow pending = c.grow pending
    rw [grow.eq_def c, if_pos hsmall]
  · rintro c _ ⟨hsmall, rfl⟩
    have := c.four_le
    simp only [double]
    omega

end Capacity

namespace Source

/-- A read that is interrupted is made again. -/
def ReadAgain (segments rest : List Segment) : Prop :=
  segments = .interruption :: rest

/-- The reads that are made again come to an end. -/
theorem endsWithin_readSegments (count : Nat) (segments : List Segment) :
    EndsWithin ReadAgain (readSegments count) segments.length segments := by
  apply endsWithin_of_lt List.length
  · rintro _ rest rfl
    rfl
  · rintro _ rest rfl
    exact Nat.lt_succ_self _

end Source

namespace LineReader

/-- A reader that has found no line reads once more. -/
def ReadsOn (r r' : LineReader) : Prop :=
  ∃ source, r.source = some source ∧ r.lineEnd? = none ∧ r.atEnd = false ∧
    r.fill source = (none, r')

/-- The reads until a line is found come to an end. -/
theorem endsWithin_next (r : LineReader) : EndsWithin ReadsOn next r.unread r := by
  apply endsWithin_of_lt unread
  · rintro r r' ⟨source, hsource, hend, hopen, hfill⟩
    exact (next_of_fill hsource hend hopen hfill).symm
  · rintro r r' ⟨source, hsource, hend, hopen, hfill⟩
    exact unread_fill hsource hopen hfill

end LineReader

end RegistryText
