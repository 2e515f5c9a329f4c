import RegistryText.Text.Basic

/-!
# Numbers in text

Hexadecimal digits are read in either case.  They are written in the case the
output asks for, as a fixed number of digits; `hexMinimal` leaves the zeros in
front away.
-/

namespace RegistryText

/-- The value of a hexadecimal digit. -/
def hexValue? (c : Char) : Option Nat :=
  if '0' ≤ c ∧ c ≤ '9' then some (c.toNat - 48)
  else if 'a' ≤ c ∧ c ≤ 'f' then some (c.toNat - 87)
  else if 'A' ≤ c ∧ c ≤ 'F' then some (c.toNat - 55)
  else none

/-- Whether the character is a hexadecimal digit. -/
def isHexDigit (c : Char) : Bool :=
  (hexValue? c).isSome

/-- The case of the letters among written hexadecimal digits. -/
inductive LetterCase where
  | lower
  | upper
  deriving DecidableEq, Repr

/-- The digit of value `n % 16`. -/
def LetterCase.hexDigit (letters : LetterCase) (n : Nat) : Char :=
  let d := n % 16
  if d < 10 then Char.ofNat (48 + d)
  else match letters with
    | .lower => Char.ofNat (87 + d)
    | .upper => Char.ofNat (55 + d)

namespace Text

/-- The number written by a run of hexadecimal digits, most significant digit
first. -/
def hexNumber (digits : Text) : Nat :=
  digits.foldl (fun n c => 16 * n + (hexValue? c).getD 0) 0

/-- The last `width` hexadecimal digits of a number. -/
def hexPadded (letters : LetterCase) : Nat → Nat → Text
  | 0, _ => []
  | width + 1, n => hexPadded letters width (n / 16) ++ [letters.hexDigit n]

/-- A code point in lower case digits without zeros in front. -/
def hexMinimal (codePoint : Nat) : Text :=
  (hexPadded .lower 6 codePoint).dropWhile (· = '0')

/-- A byte as two lower case digits. -/
def hexByte (b : UInt8) : Text :=
  hexPadded .lower 2 b.toNat

/-- A number in decimal digits. -/
def decimal (n : Nat) : Text :=
  Nat.toDigits 10 n

/-- The texts in a row, with `separator` between each two. -/
def joinWith (separator : Text) : List Text → Text
  | [] => []
  | [t] => t
  | t :: u :: rest => t ++ separator ++ joinWith separator (u :: rest)

end Text

end RegistryText
