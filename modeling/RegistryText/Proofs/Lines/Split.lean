import RegistryText.Text.Basic

/-!
# Splitting a sequence into lines

`linesOf` splits a sequence over any alphabet in which two letters end lines:
at the first, at the second, and at the two in this order, which count as one
end.  It knows nothing of reads, buffers or encodings.  The line reader is
measured by it on code units, a decoded text by it on characters.

What a proof needs is how it treats a line in front of an end
(`linesOf_append_lf`, `linesOf_append_cr`), a last line without one
(`linesOf_of_endFree`), and letters in front of a first line
(`linesOf_append_of_cons`).  `first_end` tells these cases apart.
-/

namespace RegistryText

section EndFree

variable {α : Type} {cr lf : α}

/-- A sequence without an end of a line. -/
def EndFree (cr lf : α) (units : List α) : Prop :=
  ∀ u ∈ units, u ≠ cr ∧ u ≠ lf

instance [DecidableEq α] (units : List α) : Decidable (EndFree cr lf units) :=
  inferInstanceAs (Decidable (∀ u ∈ units, u ≠ cr ∧ u ≠ lf))

@[simp] theorem endFree_nil : EndFree cr lf [] := by
  simp [EndFree]

@[simp] theorem endFree_cons {a : α} {units : List α} :
    EndFree cr lf (a :: units) ↔ (a ≠ cr ∧ a ≠ lf) ∧ EndFree cr lf units := by
  simp [EndFree]

@[simp] theorem endFree_append {front units : List α} :
    EndFree cr lf (front ++ units) ↔ EndFree cr lf front ∧ EndFree cr lf units := by
  induction front with
  | nil => simp
  | cons a front ih => simp [ih, and_assoc]

/-- Every sequence is free of ends or has a first one. -/
theorem first_end [DecidableEq α] (cr lf : α) (units : List α) :
    EndFree cr lf units ∨
      (∃ line rest, units = line ++ lf :: rest ∧ EndFree cr lf line) ∨
      (∃ line rest, units = line ++ cr :: rest ∧ EndFree cr lf line) := by
  induction units with
  | nil => exact Or.inl endFree_nil
  | cons a units ih =>
      by_cases hlf : a = lf
      · exact Or.inr (Or.inl ⟨[], units, by simp [hlf], endFree_nil⟩)
      by_cases hcr : a = cr
      · exact Or.inr (Or.inr ⟨[], units, by simp [hcr], endFree_nil⟩)
      rcases ih with hfree | ⟨line, rest, rfl, hline⟩ | ⟨line, rest, rfl, hline⟩
      · exact Or.inl (endFree_cons.mpr ⟨⟨hcr, hlf⟩, hfree⟩)
      · exact Or.inr (Or.inl ⟨a :: line, rest, rfl, endFree_cons.mpr ⟨⟨hcr, hlf⟩, hline⟩⟩)
      · exact Or.inr (Or.inr ⟨a :: line, rest, rfl, endFree_cons.mpr ⟨⟨hcr, hlf⟩, hline⟩⟩)

end EndFree

section Split

variable {α : Type} [DecidableEq α]

/-- Put a letter in front of the first line; without lines it becomes one. -/
def joinFirstLine (a : α) : List (List α) → List (List α)
  | [] => [[a]]
  | line :: lines => (a :: line) :: lines

/-- The lines of a sequence in which `cr` and `lf` end lines.  What is left
without an end is a line as well, unless it is empty. -/
def linesOf (cr lf : α) : List α → List (List α)
  | [] => []
  | [a] => if a = lf ∨ a = cr then [[]] else [[a]]
  | a :: b :: rest =>
      if a = lf then [] :: linesOf cr lf (b :: rest)
      else if a = cr then [] :: if b = lf then linesOf cr lf rest else linesOf cr lf (b :: rest)
      else joinFirstLine a (linesOf cr lf (b :: rest))

/-- What a line feed behind a carriage return leaves of a sequence. -/
def dropLineFeed (lf : α) : List α → List α
  | [] => []
  | a :: rest => if a = lf then rest else a :: rest

variable {cr lf : α}

@[simp] theorem linesOf_nil : linesOf cr lf [] = [] := rfl

/-- A line feed ends a line. -/
theorem linesOf_lf (units : List α) : linesOf cr lf (lf :: units) = [] :: linesOf cr lf units := by
  cases units <;> simp [linesOf]

/-- A carriage return ends a line, together with a line feed behind it. -/
theorem linesOf_cr (hne : cr ≠ lf) (units : List α) :
    linesOf cr lf (cr :: units) = [] :: linesOf cr lf (dropLineFeed lf units) := by
  cases units with
  | nil => simp [linesOf, dropLineFeed]
  | cons b units =>
      simp only [linesOf, if_neg hne, if_true, dropLineFeed]
      split <;> rfl

/-- Every other letter belongs to the first line. -/
theorem linesOf_cons {a : α} (h : a ≠ cr ∧ a ≠ lf) (units : List α) :
    linesOf cr lf (a :: units) = joinFirstLine a (linesOf cr lf units) := by
  cases units with
  | nil => simp [linesOf, h, joinFirstLine]
  | cons b units => simp [linesOf, h]

/-- Letters in front of the first line belong to it. -/
theorem linesOf_append_of_cons {front units line : List α} {lines : List (List α)}
    (hfront : EndFree cr lf front) (h : linesOf cr lf units = line :: lines) :
    linesOf cr lf (front ++ units) = (front ++ line) :: lines := by
  induction front with
  | nil => exact h
  | cons a front ih =>
      obtain ⟨ha, hfront⟩ := endFree_cons.mp hfront
      rw [List.cons_append, linesOf_cons ha, ih hfront]
      rfl

/-- A line in front of a line feed. -/
theorem linesOf_append_lf {line : List α} (h : EndFree cr lf line) (units : List α) :
    linesOf cr lf (line ++ lf :: units) = line :: linesOf cr lf units := by
  simpa using linesOf_append_of_cons h (linesOf_lf units)

/-- A line in front of a carriage return. -/
theorem linesOf_append_cr (hne : cr ≠ lf) {line : List α} (h : EndFree cr lf line)
    (units : List α) :
    linesOf cr lf (line ++ cr :: units) = line :: linesOf cr lf (dropLineFeed lf units) := by
  simpa using linesOf_append_of_cons h (linesOf_cr hne units)

/-- A last line without an end. -/
theorem linesOf_of_endFree {line : List α} (h : EndFree cr lf line) (hne : line ≠ []) :
    linesOf cr lf line = [line] := by
  induction line with
  | nil => exact absurd rfl hne
  | cons a line ih =>
      obtain ⟨ha, hline⟩ := endFree_cons.mp h
      rw [linesOf_cons ha]
      cases line with
      | nil => rfl
      | cons b line => rw [ih hline (by simp)]; rfl

/-- A line has no more letters than there are. -/
theorem length_le_of_mem_linesOf {units line : List α} (h : line ∈ linesOf cr lf units) :
    line.length ≤ units.length := by
  fun_induction linesOf cr lf units generalizing line with
  | case1 => cases h
  | case2 a hend | case3 a hend =>
      obtain rfl := List.mem_singleton.mp h
      simp
  | case4 b rest ih =>
      rcases List.mem_cons.mp h with rfl | hlater
      · exact Nat.zero_le _
      · exact Nat.le_succ_of_le (ih hlater)
  | case5 b rest hne ihRest ih =>
      rcases List.mem_cons.mp h with rfl | hlater
      · exact Nat.zero_le _
      split at hlater
      · exact Nat.le_trans (ihRest hlater) (Nat.le_add_right _ 2)
      · exact Nat.le_succ_of_le (ih hlater)
  | case6 a b rest hlf hcr ih =>
      generalize linesOf cr lf (b :: rest) = lines at h ih
      cases lines with
      | nil =>
          rw [joinFirstLine, List.mem_singleton] at h
          simp [h]
      | cons first lines =>
          rcases List.mem_cons.mp h with rfl | hlater
          · exact Nat.succ_le_succ (ih List.mem_cons_self)
          · exact Nat.le_succ_of_le (ih (List.mem_cons_of_mem _ hlater))

theorem length_dropLineFeed_le (lf : α) (units : List α) :
    (dropLineFeed lf units).length ≤ units.length := by
  cases units with
  | nil => simp [dropLineFeed]
  | cons a units => simp only [dropLineFeed]; split <;> simp

/-- Splitting goes through every change of the alphabet that turns no other letter into one of
those that end lines. -/
theorem linesOf_map_of_ends {β : Type} [DecidableEq β] {f : α → β}
    (hcr : ∀ a, f a = f cr ↔ a = cr) (hlf : ∀ a, f a = f lf ↔ a = lf) (units : List α) :
    linesOf (f cr) (f lf) (units.map f) = (linesOf cr lf units).map (List.map f) := by
  have hjoin : ∀ a (lines : List (List α)),
      joinFirstLine (f a) (lines.map (List.map f)) = (joinFirstLine a lines).map (List.map f) := by
    intro a lines
    cases lines <;> rfl
  fun_induction linesOf cr lf units with
  | case1 => rfl
  | case2 a h => simp [linesOf, hcr, hlf, h]
  | case3 a h => simp [linesOf, hcr, hlf, h]
  | case4 b rest ih =>
      rw [List.map_cons, linesOf_lf, ih]
      rfl
  | case5 b rest hne ih ih' =>
      rw [List.map_cons, linesOf_cr (mt (hlf cr).mp hne), List.map_cons]
      by_cases hb : b = lf
      · simpa [dropLineFeed, hb] using ih
      · simpa [dropLineFeed, hb, hlf] using ih'
  | case6 a b rest hnotLf hnotCr ih =>
      rw [List.map_cons, linesOf_cons (by simp [hcr, hlf, hnotLf, hnotCr]), ih, hjoin]

/-- Splitting goes through every change of the alphabet that keeps letters
apart. -/
theorem linesOf_map {β : Type} [DecidableEq β] {f : α → β}
    (hf : ∀ a b, f a = f b → a = b) (units : List α) :
    linesOf (f cr) (f lf) (units.map f) = (linesOf cr lf units).map (List.map f) :=
  linesOf_map_of_ends (fun a => ⟨hf a cr, congrArg f⟩) (fun a => ⟨hf a lf, congrArg f⟩) units

end Split

end RegistryText
