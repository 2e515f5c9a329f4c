import RegistryText.Proofs.Text.Blanks

/-!
# Cutting a text

A text may be cut where a character begins and at its end, and nowhere else.  The cuts of this file
answer with nothing where they are not possible: what stands behind a place (`dropBytes?`), what
stands in front of one (`takeBytes?`), a text that is shortened to a number of bytes
(`shorten?`), and the place where an ending begins (`placeOfEnding?`), which only an ending has.

**What stands at a place can be cut off there**: each cut is possible at the places of `At`.
-/

namespace RegistryText.Text

/-- The first `n` bytes, if a character begins or the text ends behind them. -/
def takeBytes? (t : Text) (n : Nat) : Option Text :=
  if (t.dropBytes? n).isSome then some (t.untilPlace n) else none

/-- The text shortened to `n` bytes; a text of fewer bytes stays as it is, and inside of a character
it cannot be cut. -/
def shorten? (t : Text) (n : Nat) : Option Text :=
  if t.byteLength < n then some t else t.takeBytes? n

/-- The place where an ending of the text begins; other texts have none. -/
def placeOfEnding? (t rest : Text) : Option Nat :=
  if rest <:+ t then some (t.placeOf rest) else none

theorem takeBytes?_append (front rest : Text) :
    (front ++ rest).takeBytes? front.byteLength = some front := by
  rw [takeBytes?, dropBytes?_append, untilPlace_append]
  rfl

/-- What stands at a place can be cut off there. -/
theorem At.dropBytes?_eq {t rest : Text} {place : Nat} (h : t.At place rest) :
    t.dropBytes? place = some rest := by
  obtain ⟨front, rfl, rfl⟩ := h
  exact dropBytes?_append front rest

/-- What stands at a place is an ending. -/
theorem At.placeOfEnding?_eq {t rest : Text} {place : Nat} (h : t.At place rest) :
    t.placeOfEnding? rest = some (t.placeOf rest) := by
  obtain ⟨front, rfl, -⟩ := h
  exact if_pos ⟨front, rfl⟩

/-- A place is at most the number of bytes of the text. -/
theorem At.le_byteLength {t rest : Text} {place : Nat} (h : t.At place rest) :
    place ≤ t.byteLength := by
  obtain ⟨front, rfl, rfl⟩ := h
  rw [byteLength_append]
  omega

/-- The blanks at the end can be cut off behind any place. -/
theorem At.shorten?_eq {t rest : Text} {place : Nat} (h : t.At place rest) :
    t.shorten? (place + rest.trimBlanksRight.byteLength) =
      some (t.untilPlace (place + rest.trimBlanksRight.byteLength)) := by
  obtain ⟨front, rfl, rfl⟩ := h
  obtain ⟨blanks, -, heq⟩ := exists_eq_trimBlanksRight rest
  have hline : front ++ rest = (front ++ rest.trimBlanksRight) ++ blanks := by
    rw [List.append_assoc, ← heq]
  have hplace : front.byteLength + rest.trimBlanksRight.byteLength =
      byteLength (front ++ rest.trimBlanksRight) := (byteLength_append ..).symm
  have hinside : ¬byteLength (front ++ rest) < byteLength (front ++ rest.trimBlanksRight) := by
    rw [hline, byteLength_append (front ++ rest.trimBlanksRight)]
    omega
  rw [hplace, shorten?, if_neg hinside]
  generalize front ++ rest.trimBlanksRight = kept at hline
  rw [hline, takeBytes?_append, untilPlace_append]

end RegistryText.Text
