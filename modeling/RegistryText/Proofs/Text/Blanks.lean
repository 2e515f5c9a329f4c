import RegistryText.Proofs.Text.Places

/-!
# Blanks around a text

The grammar skips blanks in front of a text, cuts them off behind it, and lets
blanks and a comment follow a payload.  Here each of these is said as an
equation between the text and its parts.
-/

namespace RegistryText.Text

/-- A text of blanks only. -/
def IsBlanks (t : Text) : Prop :=
  ∀ c ∈ t, isBlank c = true

/-- A text is the blanks at its start and what is left without them. -/
theorem exists_eq_skipBlanks (t : Text) :
    ∃ blanks, IsBlanks blanks ∧ t = blanks ++ t.skipBlanks := by
  refine ⟨t.takeWhile isBlank, ?_, (List.takeWhile_append_dropWhile).symm⟩
  exact List.all_eq_true.mp List.all_takeWhile

/-- A text is what is left without the blanks at its end, and these blanks. -/
theorem exists_eq_trimBlanksRight (t : Text) :
    ∃ blanks, IsBlanks blanks ∧ t = t.trimBlanksRight ++ blanks := by
  obtain ⟨blanks, hblanks, heq⟩ := exists_eq_skipBlanks t.reverse
  refine ⟨blanks.reverse, ?_, ?_⟩
  · intro c hc
    exact hblanks c (List.mem_reverse.mp hc)
  · have hreverse := congrArg List.reverse heq
    rwa [List.reverse_reverse, List.reverse_append] at hreverse

/-- No blank is left at the start. -/
theorem isBlank_of_skipBlanks {t rest : Text} {c : Char} (h : t.skipBlanks = c :: rest) :
    isBlank c = false := by
  have hhead := List.head?_dropWhile_not isBlank t
  rw [show t.dropWhile isBlank = c :: rest from h] at hhead
  simpa using hhead

theorem skipBlanks_skipBlanks (t : Text) : t.skipBlanks.skipBlanks = t.skipBlanks := by
  cases h : t.skipBlanks with
  | nil => rfl
  | cons c rest => exact skipBlanks_cons (isBlank_of_skipBlanks h) rest

theorem startsWith_singleton_iff {t : Text} {c : Char} :
    t.startsWith [c] = true ↔ t.head? = some c := by
  cases t with
  | nil => simp [startsWith, after?]
  | cons d rest => by_cases h : c = d <;> simp [startsWith, after?, h, eq_comm]

/-- What may follow a payload on its line: blanks, and a comment. -/
def IsTrailer (t : Text) : Prop :=
  ∃ blanks behind, IsBlanks blanks ∧ t = blanks ++ behind ∧
    (behind = [] ∨ ∃ comment, behind = ';' :: comment)

theorem isEmptyOrComment_iff {t : Text} :
    t.isEmptyOrComment = true ↔ t = [] ∨ ∃ comment, t = ';' :: comment := by
  cases t with
  | nil => simp [isEmptyOrComment]
  | cons c rest => simp [isEmptyOrComment]

/-- A trailer is what is empty or a comment behind its blanks. -/
theorem isTrailer_iff {t : Text} : t.IsTrailer ↔ t.skipBlanks.isEmptyOrComment = true := by
  constructor
  · rintro ⟨blanks, behind, hblanks, rfl, hbehind⟩
    rw [skipBlanks_append hblanks]
    rcases hbehind with rfl | ⟨comment, rfl⟩
    · rfl
    · rw [skipBlanks_cons (by decide)]
      rfl
  · intro h
    obtain ⟨blanks, hblanks, heq⟩ := exists_eq_skipBlanks t
    exact ⟨blanks, t.skipBlanks, hblanks, heq, isEmptyOrComment_iff.mp h⟩

/-- Behind a read text stands the rest. -/
theorem At.rest {t whole read rest : Text} {place : Nat} (h : t.At place whole)
    (hwhole : whole = read ++ rest) : t.At (t.placeOf rest) rest := by
  subst hwhole
  exact h.drop read

/-- Behind blanks stands what follows them. -/
theorem At.skipBlanks {t rest : Text} {place : Nat} (h : t.At place rest) :
    t.At (t.placeOf rest.skipBlanks) rest.skipBlanks := by
  obtain ⟨blanks, -, heq⟩ := exists_eq_skipBlanks rest
  exact h.rest heq

/-- When the blanks at the end are cut off, the rest at a place loses them. -/
theorem At.cut {t rest : Text} {place : Nat} (h : t.At place rest) :
    (t.untilPlace (place + byteLength rest.trimBlanksRight)).At place rest.trimBlanksRight := by
  obtain ⟨front, rfl, rfl⟩ := h
  obtain ⟨blanks, -, heq⟩ := exists_eq_trimBlanksRight rest
  have hcut : (front ++ rest).untilPlace (byteLength front + byteLength rest.trimBlanksRight) =
      front ++ rest.trimBlanksRight := by
    have hfront := untilPlace_append (front ++ rest.trimBlanksRight) blanks
    rwa [List.append_assoc, ← heq, byteLength_append] at hfront
  rw [hcut]
  exact ⟨front, rfl, rfl⟩

end RegistryText.Text
