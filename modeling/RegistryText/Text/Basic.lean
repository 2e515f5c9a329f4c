/-!
# Text, and places in it

A text is a list of Unicode characters.  A *place* in a text is a number of
bytes of its UTF-8 form: the import machine carries such a place from one
state to the next.  Not every number is a place, since a character may take up
to four bytes, and `dropBytes?` answers only where a character begins or the
text ends.

`after?` splits off a fixed beginning, and `before` is the order of texts by
code points, which is also the order of their UTF-8 forms.
-/

namespace RegistryText

/-- A sequence of Unicode characters. -/
abbrev Text := List Char

/-- A sequence of raw bytes. -/
abbrev Bytes := List UInt8

namespace Text

/-- The number of bytes of the UTF-8 form. -/
def byteLength : Text → Nat
  | [] => 0
  | c :: rest => c.utf8Size + byteLength rest

@[simp] theorem byteLength_nil : byteLength [] = 0 := rfl

@[simp] theorem byteLength_cons (c : Char) (t : Text) :
    byteLength (c :: t) = c.utf8Size + byteLength t := rfl

@[simp] theorem byteLength_append (s t : Text) :
    byteLength (s ++ t) = byteLength s + byteLength t := by
  induction s with
  | nil => simp
  | cons c s ih => simp [ih, Nat.add_assoc]

/-- What stands behind the first `n` bytes, if a character begins or the text
ends there. -/
def dropBytes? : Text → Nat → Option Text
  | [], n => if n = 0 then some [] else none
  | c :: rest, n =>
      if n = 0 then some (c :: rest)
      else if c.utf8Size ≤ n then dropBytes? rest (n - c.utf8Size)
      else none

/-- Dropping the bytes of a beginning leaves what follows it. -/
theorem dropBytes?_append (s t : Text) :
    dropBytes? (s ++ t) (byteLength s) = some t := by
  induction s with
  | nil => cases t <;> simp [dropBytes?]
  | cons c s ih =>
      have hpos : c.utf8Size ≠ 0 := Nat.ne_of_gt (Char.utf8Size_pos c)
      simp [dropBytes?, ih, hpos]

/-- Only the byte length of a beginning is a place. -/
theorem eq_append_of_dropBytes? {t r : Text} {n : Nat}
    (h : dropBytes? t n = some r) : ∃ s, t = s ++ r ∧ byteLength s = n := by
  induction t generalizing n with
  | nil =>
      simp only [dropBytes?] at h
      split at h
      · cases h; exact ⟨[], by simp, by simp_all⟩
      · cases h
  | cons c t ih =>
      simp only [dropBytes?] at h
      split at h
      · cases h; exact ⟨[], by simp, by simp_all⟩
      · split at h
        · obtain ⟨s, rfl, hs⟩ := ih h
          exact ⟨c :: s, by simp, by simp; omega⟩
        · cases h

/-- The place where `rest`, an ending of `t`, begins in `t`. -/
def placeOf (t rest : Text) : Nat :=
  byteLength t - byteLength rest

/-- The text from place `n` on; nothing if `n` is no place of `t`. -/
def fromPlace (t : Text) (n : Nat) : Text :=
  (dropBytes? t n).getD []

/-- The text up to place `n`; a character that `n` would cut is left out. -/
def untilPlace : Text → Nat → Text
  | [], _ => []
  | c :: rest, n =>
      if c.utf8Size ≤ n then c :: untilPlace rest (n - c.utf8Size) else []

/-- The text in front of the last occurrence of a character. -/
def beforeLast? (c : Char) : Text → Option Text
  | [] => none
  | d :: rest =>
      match beforeLast? c rest with
      | some front => some (d :: front)
      | none => if d = c then some [] else none

/-- What follows the given beginning, if the text has it. -/
def after? : Text → Text → Option Text
  | [], t => some t
  | _ :: _, [] => none
  | a :: lead, b :: t => if a = b then after? lead t else none

theorem after?_eq_some_iff {lead t rest : Text} :
    after? lead t = some rest ↔ t = lead ++ rest := by
  induction lead generalizing t with
  | nil => simp [after?, eq_comm]
  | cons a lead ih =>
      cases t with
      | nil => simp [after?]
      | cons b t =>
          by_cases hab : a = b
          · simp [after?, hab, ih]
          · simp [after?, hab, Ne.symm hab]

/-- Whether the text has the given beginning. -/
def startsWith (t lead : Text) : Bool :=
  (after? lead t).isSome

/-- `before s t` holds when `s` comes strictly first in the order by code
points. -/
def before : Text → Text → Bool
  | _, [] => false
  | [], _ :: _ => true
  | a :: s, b :: t => a.toNat < b.toNat || (a == b && before s t)

/-- The ASCII lower case of a character; all other characters stay. -/
def asciiLower (c : Char) : Char :=
  if 'A' ≤ c ∧ c ≤ 'Z' then Char.ofNat (c.toNat + 32) else c

/-- Equality of texts up to the case of ASCII letters. -/
def sameIgnoringAsciiCase (s t : Text) : Bool :=
  s.map asciiLower == t.map asciiLower

/-- The pieces between the occurrences of a separator; one more than there are
separators. -/
def piecesAt (separator : Char) : Text → List Text
  | [] => [[]]
  | c :: t =>
      match piecesAt separator t with
      | [] => [[]]
      | piece :: pieces =>
          if c = separator then [] :: piece :: pieces
          else (c :: piece) :: pieces

end Text

end RegistryText
