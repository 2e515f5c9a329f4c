import RegistryText.Proofs.Payload.Grammar

/-!
# Comments behind a payload

Blanks, a semicolon and any text are a comment.  **Each grammar lets a comment follow
what it accepts, and means the same by it**: this is what the lemmas below say of trailers,
tags, escaped texts, doublewords and the lines of a list of bytes.

The other way round it does not hold.  The payload of a doubleword may be a comment alone
and cannot be empty, and a list whose line is a comment goes on where one whose line is
blank ends; so a comment may make sense of what made none.
-/

namespace RegistryText

namespace Text

/-- A comment, with blanks in front of it. -/
def IsComment (t : Text) : Prop :=
  ∃ blanks text : Text, IsBlanks blanks ∧ t = blanks ++ ';' :: text

/-- What is left of a comment without its blanks begins with the semicolon. -/
theorem IsComment.skipBlanks {t : Text} (h : t.IsComment) :
    ∃ text, t.skipBlanks = ';' :: text := by
  obtain ⟨blanks, text, hblanks, rfl⟩ := h
  exact ⟨text, by rw [skipBlanks_append hblanks, skipBlanks_cons (by decide)]⟩

/-- More blanks may stand in front of a comment. -/
theorem IsComment.behind {blanks t : Text} (hblanks : blanks.IsBlanks) (h : t.IsComment) :
    (blanks ++ t).IsComment := by
  obtain ⟨more, text, hmore, rfl⟩ := h
  refine ⟨blanks ++ more, text, ?_, (List.append_assoc ..).symm⟩
  intro c hc
  rcases List.mem_append.mp hc with hc | hc
  · exact hblanks c hc
  · exact hmore c hc

/-- A comment may follow a trailer. -/
theorem IsTrailer.append {t comment : Text} (h : t.IsTrailer) (hcomment : comment.IsComment) :
    (t ++ comment).IsTrailer := by
  obtain ⟨blanks, behind, hblanks, rfl, hbehind⟩ := h
  rcases hbehind with rfl | ⟨text, rfl⟩
  · obtain ⟨more, text, hmore, heq⟩ := hcomment.behind hblanks
    exact ⟨more, ';' :: text, hmore, by rw [List.append_nil, heq], Or.inr ⟨text, rfl⟩⟩
  · exact ⟨blanks, ';' :: (text ++ comment), hblanks, by simp, Or.inr ⟨_, rfl⟩⟩

/-- What stands behind a text that is not blank is not skipped. -/
theorem skipBlanks_append_of_cons {t rest : Text} {c : Char} (h : t.skipBlanks = c :: rest)
    (behind : Text) : (t ++ behind).skipBlanks = c :: (rest ++ behind) := by
  obtain ⟨blanks, hblanks, ht⟩ := exists_eq_skipBlanks t
  rw [ht, h, List.append_assoc, skipBlanks_append hblanks, List.cons_append,
    skipBlanks_cons (isBlank_of_skipBlanks h)]

/-- Blanks are cut off behind the last character that is none. -/
theorem trimBlanksRight_append_cons {c : Char} (hc : isBlank c = false) (front rest : Text) :
    (front ++ c :: rest).trimBlanksRight = front ++ c :: rest.trimBlanksRight := by
  simp only [trimBlanksRight, List.reverse_append, List.reverse_cons, List.append_assoc,
    List.dropWhile_append]
  split
  next hempty =>
    rw [List.isEmpty_iff] at hempty
    simp [hc, hempty]
  next => simp

/-- When the blanks at the end are cut off, a comment stays behind the text. -/
theorem trimBlanksRight_append {comment : Text} (hcomment : comment.IsComment) (t : Text) :
    ∃ comment', IsComment comment' ∧
      (t ++ comment).trimBlanksRight = t.trimBlanksRight ++ comment' := by
  obtain ⟨blanks, text, hblanks, rfl⟩ := hcomment
  obtain ⟨cut, hcut, ht⟩ := exists_eq_trimBlanksRight t
  refine ⟨cut ++ (blanks ++ ';' :: text.trimBlanksRight),
    IsComment.behind hcut ⟨blanks, text.trimBlanksRight, hblanks, rfl⟩, ?_⟩
  calc (t ++ (blanks ++ ';' :: text)).trimBlanksRight
      = ((t ++ blanks) ++ ';' :: text).trimBlanksRight := by rw [List.append_assoc]
    _ = (t ++ blanks) ++ ';' :: text.trimBlanksRight :=
        trimBlanksRight_append_cons (by decide) _ _
    _ = t.trimBlanksRight ++ (cut ++ (blanks ++ ';' :: text.trimBlanksRight)) := by
        rw [List.append_assoc, ← List.append_assoc t.trimBlanksRight, ← ht]

/-- A character that a text does not hold has no last occurrence in it. -/
theorem beforeLast?_of_not_mem {c : Char} {t : Text} (h : c ∉ t) : beforeLast? c t = none := by
  cases hlast : beforeLast? c t with
  | none => rfl
  | some front =>
      obtain ⟨rest, rfl, -⟩ := eq_of_beforeLast? hlast
      simp at h

/-- The last occurrence of a character is in front of what does not hold it. -/
theorem beforeLast?_append {c : Char} {behind : Text} (hbehind : c ∉ behind) (t : Text) :
    beforeLast? c (t ++ behind) = beforeLast? c t := by
  induction t with
  | nil => exact beforeLast?_of_not_mem hbehind
  | cons d t ih => rw [List.cons_append, beforeLast?, beforeLast?, ih]

end Text

/-! ### Payloads -/

/-- What follows the closing quote of an escaped text is not looked at. -/
theorem Escaped.read?_append {t : Text} {u : Unescaped} (h : read? t = some u) (behind : Text) :
    read? (t ++ behind) = some { u with rest := u.rest ++ behind } := by
  obtain ⟨written, rfl, hmeans⟩ := read?_eq_some_iff.mp h
  exact read?_eq_some_iff.mpr ⟨written, by simp, hmeans⟩

/-- A tag heads whatever stands behind its payload as well. -/
theorem TypeTag.read?_append {t payload : Text} {tag : TypeTag}
    (h : read? t = some (tag, payload)) (behind : Text) :
    read? (t ++ behind) = some (tag, payload ++ behind) := by
  rw [read?_eq_some_iff] at h ⊢
  cases h with
  | string => exact .string
  | binary => exact .binary
  | dword => exact .dword
  | typed hcode hne =>
      rw [List.append_assoc]
      exact .typed hcode hne

variable {comment : Text} (hcomment : comment.IsComment)
include hcomment

theorem Dword.read?_append {payload : Text} {value : UInt32} (h : read? payload = some value) :
    read? (payload ++ comment) = some value := by
  rw [read?_eq_some_iff] at h ⊢
  cases h with
  | digits hfront hdigits hne hlength hbehind =>
      rw [List.append_assoc]
      exact .digits hfront hdigits hne hlength (hbehind.append hcomment)
  | comment hfront =>
      rw [List.append_assoc]
      exact .comment hfront

/-- A comment may follow every line of a list of bytes. -/
theorem HexList.Spelled.append {line : Text} {ending : Ending} {bytes : Bytes}
    (h : Spelled line ending bytes) : Spelled (line ++ comment) ending bytes := by
  induction h with
  | stop h => exact .stop (h.append hcomment)
  | continued hfront hbehind =>
      rw [List.append_assoc]
      exact .continued hfront (hbehind.append hcomment)
  | last hfront hb hbehind =>
      rw [List.append_assoc]
      exact .last hfront hb (hbehind.append hcomment)
  | next hfront hb hblanks tail ih =>
      rw [List.append_assoc]
      exact .next hfront hb hblanks ih

theorem HexList.readLine_comment {line : Text} {ending : Ending} {bytes : Bytes}
    (h : readLine line = (some ending, bytes)) :
    readLine (line ++ comment) = (some ending, bytes) :=
  readLine_eq_some_iff.mpr ((readLine_eq_some_iff.mp h).append hcomment)

end RegistryText
