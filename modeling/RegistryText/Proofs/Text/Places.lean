import RegistryText.Text.Blank

/-!
# Reading at a place

A step of an import is given a line and a place in it, and goes on at the place
of what it has left of the line.  `At` says what stands at a place, so that a
proof speaks of texts and not of byte counts: what stands at a place is read
there, and the place of its rest is where the rest stands.
-/

namespace RegistryText.Text

/-- The rest of the text at a place. -/
def At (t : Text) (place : Nat) (rest : Text) : Prop :=
  ∃ front, t = front ++ rest ∧ place = byteLength front

/-- A text stands at its own start. -/
theorem at_zero (t : Text) : t.At 0 t :=
  ⟨[], rfl, rfl⟩

/-- What stands at a place is read there. -/
theorem At.fromPlace {t rest : Text} {place : Nat} (h : t.At place rest) :
    t.fromPlace place = rest := by
  obtain ⟨front, rfl, rfl⟩ := h
  rw [Text.fromPlace, dropBytes?_append]
  rfl

/-- The place of a rest is where it stands. -/
theorem At.placeOf_eq {t rest : Text} {place : Nat} (h : t.At place rest) :
    t.placeOf rest = place := by
  obtain ⟨front, rfl, rfl⟩ := h
  rw [placeOf, byteLength_append]
  omega

theorem placeOf_self (t : Text) : t.placeOf t = 0 :=
  (at_zero t).placeOf_eq

/-- Behind a read text stands the rest. -/
theorem At.drop {t rest : Text} {place : Nat} (read : Text) (h : t.At place (read ++ rest)) :
    t.At (t.placeOf rest) rest := by
  obtain ⟨front, rfl, rfl⟩ := h
  have hat : (front ++ (read ++ rest)).At (byteLength (front ++ read)) rest :=
    ⟨front ++ read, by simp, rfl⟩
  rw [hat.placeOf_eq]
  exact hat

/-- One byte behind a place stands what follows an ASCII character. -/
theorem At.next {t rest : Text} {c : Char} {place : Nat} (h : t.At place (c :: rest))
    (hc : c.utf8Size = 1) : t.At (place + 1) rest := by
  obtain ⟨front, rfl, rfl⟩ := h
  exact ⟨front ++ [c], by simp, by simp [hc]⟩

/-- What stands before the end of a front. -/
theorem untilPlace_append (front rest : Text) :
    (front ++ rest).untilPlace (byteLength front) = front := by
  induction front with
  | nil =>
      cases rest with
      | nil => rfl
      | cons c rest =>
          have hpos := Char.utf8Size_pos c
          have hcut : ¬c.utf8Size ≤ 0 := by omega
          simp [untilPlace, hcut]
  | cons c front ih =>
      have hleft : c.utf8Size + byteLength front - c.utf8Size = byteLength front := by omega
      rw [List.cons_append, untilPlace, byteLength_cons, if_pos (Nat.le_add_right _ _), hleft, ih]

/-- The rest at a place reaches to the end. -/
theorem At.untilPlace {t rest : Text} {place : Nat} (h : t.At place rest) :
    t.untilPlace (place + byteLength rest) = t := by
  obtain ⟨front, rfl, rfl⟩ := h
  simpa using untilPlace_append (front ++ rest) []

/-- A text that begins with no blank stays as it is. -/
theorem skipBlanks_cons {c : Char} (hc : isBlank c = false) (t : Text) :
    skipBlanks (c :: t) = c :: t := by
  rw [skipBlanks, List.dropWhile_cons, hc]
  rfl

/-- Blanks in front are skipped. -/
theorem skipBlanks_append {indent : Text} (hindent : ∀ c ∈ indent, isBlank c = true) (t : Text) :
    skipBlanks (indent ++ t) = skipBlanks t := by
  rw [skipBlanks, List.dropWhile_append_of_pos hindent, skipBlanks]

/-- A text that ends with no blank stays as it is. -/
theorem trimBlanksRight_concat {c : Char} (hc : isBlank c = false) (t : Text) :
    trimBlanksRight (t ++ [c]) = t ++ [c] := by
  simp [trimBlanksRight, hc]

/-- What stands in front of the last character is before its last occurrence. -/
theorem beforeLast?_concat (c : Char) (t : Text) : beforeLast? c (t ++ [c]) = some t := by
  induction t with
  | nil => simp [beforeLast?]
  | cons d t ih => simp [beforeLast?, ih]

/-- The character stands behind what is before its last occurrence, and not again. -/
theorem eq_of_beforeLast? {c : Char} {t front : Text} (h : beforeLast? c t = some front) :
    ∃ behind, t = front ++ c :: behind ∧ c ∉ behind := by
  have hnone : ∀ t : Text, beforeLast? c t = none → c ∉ t := by
    intro t
    induction t with
    | nil => simp
    | cons d rest ih =>
        intro h
        rw [beforeLast?] at h
        split at h
        · cases h
        next hrest =>
          split at h
          · cases h
          next hne => simp [ih hrest, Ne.symm hne]
  induction t generalizing front with
  | nil => cases h
  | cons d rest ih =>
      rw [beforeLast?] at h
      split at h
      next front' hrest =>
        cases h
        obtain ⟨behind, hbehind, hlast⟩ := ih hrest
        exact ⟨behind, by rw [hbehind]; rfl, hlast⟩
      next hrest =>
        split at h
        next heq =>
          cases h
          exact ⟨rest, by rw [heq]; rfl, hnone rest hrest⟩
        · cases h

end RegistryText.Text
