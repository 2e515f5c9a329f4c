import RegistryText.Text.Blank
import RegistryText.Text.Hex

/-!
# Doublewords in hexadecimal

A doubleword is written as at most eight hexadecimal digits between blanks; a
`;` begins a comment.  No digits at all stand for zero, but only in front of a
comment.
-/

namespace RegistryText.Dword

/-- Read the payload of a `dword:` value. -/
def read? (payload : Text) : Option UInt32 :=
  let t := payload.skipBlanks
  let digits := t.takeWhile isHexDigit
  let behind : Text := t.dropWhile isHexDigit
  if t = [] then none
  else if 8 < digits.length then none
  else if behind.skipBlanks.isEmptyOrComment then
    some (UInt32.ofNat (Text.hexNumber digits))
  else none

/-- The four bytes of a doubleword, low byte first. -/
def bytes (value : UInt32) : Bytes :=
  let n := value.toNat
  [UInt8.ofNat n, UInt8.ofNat (n / 0x100), UInt8.ofNat (n / 0x10000),
   UInt8.ofNat (n / 0x1000000)]

example : read? " ff ; comment".toList = some 255 := by decide

example : read? ";only a comment".toList = some 0 := by decide

example : read? "12 34".toList = none := by decide

end RegistryText.Dword
