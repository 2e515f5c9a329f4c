import RegistryText.Text.Basic

/-!
# Pieces of a text

A text is cut at the occurrences of a separator.  Cutting is additive in the text
(`piecesAt_append`), and no piece has the separator in it.

Who cuts a list of texts that are not empty leaves the empty pieces away, and so does not see
separators that are doubled or stand at the end.  **Texts that are each followed by a separator
are found again** (`fullPieces_joined`).
-/

namespace RegistryText.Text

variable {separator : Char}

/-- There is no separator in the pieces between separators. -/
theorem not_mem_of_mem_piecesAt {piece t : Text} (h : piece ∈ piecesAt separator t) :
    separator ∉ piece := by
  induction t generalizing piece with
  | nil => simp_all [piecesAt]
  | cons c t ih =>
      rw [piecesAt] at h
      split at h
      next => simp_all
      next first pieces hpieces =>
        rw [hpieces] at ih
        split at h
        next =>
          rcases List.mem_cons.mp h with rfl | hmem
          · simp
          · exact ih hmem
        next hne =>
          rcases List.mem_cons.mp h with rfl | hmem
          · simp [Ne.symm hne, ih List.mem_cons_self]
          · exact ih (List.mem_cons_of_mem _ hmem)

theorem piecesAt_ne_nil (separator : Char) (t : Text) : piecesAt separator t ≠ [] := by
  induction t with
  | nil => simp [piecesAt]
  | cons c t ih =>
      rw [piecesAt]
      split
      · simp
      · split <;> simp

/-- A separator cuts the pieces of a text in two. -/
theorem piecesAt_append (separator : Char) (s t : Text) :
    piecesAt separator (s ++ separator :: t) = piecesAt separator s ++ piecesAt separator t := by
  induction s with
  | nil =>
      cases ht : piecesAt separator t with
      | nil => exact absurd ht (piecesAt_ne_nil separator t)
      | cons piece pieces => simp [piecesAt, ht]
  | cons c s ih =>
      cases hs : piecesAt separator s with
      | nil => exact absurd hs (piecesAt_ne_nil separator s)
      | cons piece pieces =>
          rw [hs] at ih
          by_cases hc : c = separator
          · simp [piecesAt, ih, hs, hc]
          · simp [piecesAt, ih, hs, hc]

/-- A text without a separator is one piece. -/
theorem piecesAt_of_not_mem {t : Text} (h : separator ∉ t) : piecesAt separator t = [t] := by
  induction t with
  | nil => rfl
  | cons c t ih =>
      have hc : c ≠ separator := Ne.symm (List.ne_of_not_mem_cons h)
      rw [piecesAt, ih (List.not_mem_of_not_mem_cons h)]
      exact if_neg hc

/-! ### Pieces that are not empty -/

/-- The pieces that are not empty. -/
def fullPieces (separator : Char) (t : Text) : List Text :=
  (piecesAt separator t).filter fun piece => !piece.isEmpty

theorem fullPieces_append (s t : Text) :
    fullPieces separator (s ++ separator :: t) =
      fullPieces separator s ++ fullPieces separator t := by
  rw [fullPieces, piecesAt_append, List.filter_append]
  rfl

theorem fullPieces_of_not_mem {t : Text} (hne : t ≠ []) (h : separator ∉ t) :
    fullPieces separator t = [t] := by
  simp [fullPieces, piecesAt_of_not_mem h, hne]

/-- Separators at the end are not seen. -/
theorem fullPieces_append_replicate (t : Text) (n : Nat) :
    fullPieces separator (t ++ List.replicate n separator) = fullPieces separator t := by
  induction n with
  | zero => rw [List.replicate_zero, List.append_nil]
  | succ n ih =>
      have hlast : t ++ List.replicate (n + 1) separator =
          t ++ List.replicate n separator ++ separator :: [] := by
        rw [List.replicate_succ', List.append_assoc]
      have hnone : fullPieces separator [] = [] := rfl
      rw [hlast, fullPieces_append, ih, hnone, List.append_nil]

/-- **Texts with a separator behind each are found again.** -/
theorem fullPieces_joined {texts : List Text} (h : ∀ t ∈ texts, t ≠ [] ∧ separator ∉ t) :
    fullPieces separator (texts.flatMap (· ++ [separator])) = texts := by
  induction texts with
  | nil => rfl
  | cons t texts ih =>
      obtain ⟨⟨hne, hfree⟩, hrest⟩ := List.forall_mem_cons.mp h
      rw [List.flatMap_cons, List.append_assoc, List.singleton_append, fullPieces_append,
        fullPieces_of_not_mem hne hfree, ih hrest, List.singleton_append]

end RegistryText.Text
