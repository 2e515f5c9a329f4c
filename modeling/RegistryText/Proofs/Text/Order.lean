import RegistryText.Text.Basic

/-!
# The order of texts

`before` is a strict total order: no text comes before itself, of two different
texts one comes before the other, and the order is transitive.  **A text comes
before all its continuations** (`before_append`).
-/

namespace RegistryText.Text

theorem before_cons_iff {a b : Char} {s t : Text} :
    before (a :: s) (b :: t) = true ↔ a.toNat < b.toNat ∨ a = b ∧ before s t = true := by
  simp [before]

/-- No text comes before itself. -/
theorem before_irrefl (t : Text) : before t t = false := by
  induction t with
  | nil => rfl
  | cons c t ih => simp [before, ih]

theorem before_trans {s t u : Text} (hst : before s t = true) (htu : before t u = true) :
    before s u = true := by
  induction s generalizing t u with
  | nil =>
      cases u with
      | nil => cases t <;> cases htu
      | cons c u => rfl
  | cons a s ih =>
      cases t with
      | nil => cases hst
      | cons b t =>
          cases u with
          | nil => cases htu
          | cons c u =>
              rw [before_cons_iff] at hst htu ⊢
              rcases hst with hab | ⟨rfl, hst⟩ <;> rcases htu with hbc | ⟨rfl, htu⟩
              · exact Or.inl (Nat.lt_trans hab hbc)
              · exact Or.inl hab
              · exact Or.inl hbc
              · exact Or.inr ⟨rfl, ih hst htu⟩

/-- Of two different texts one comes before the other. -/
theorem before_or_before {s t : Text} (h : s ≠ t) : before s t = true ∨ before t s = true := by
  induction s generalizing t with
  | nil =>
      cases t with
      | nil => exact absurd rfl h
      | cons b t => exact Or.inl rfl
  | cons a s ih =>
      cases t with
      | nil => exact Or.inr rfl
      | cons b t =>
          rw [before_cons_iff, before_cons_iff]
          rcases Nat.lt_trichotomy a.toNat b.toNat with hlt | heq | hgt
          · exact Or.inl (Or.inl hlt)
          · obtain rfl : a = b := Char.toNat_inj.mp heq
            have hne : s ≠ t := fun hst => h (congrArg (a :: ·) hst)
            exact (ih hne).imp (fun hst => Or.inr ⟨rfl, hst⟩) fun hts => Or.inr ⟨rfl, hts⟩
          · exact Or.inr (Or.inl hgt)

/-- A text comes before its continuations. -/
theorem before_append (s : Text) (c : Char) (t : Text) : before s (s ++ c :: t) = true := by
  induction s with
  | nil => rfl
  | cons a s ih => exact before_cons_iff.mpr (Or.inr ⟨rfl, ih⟩)

end RegistryText.Text
