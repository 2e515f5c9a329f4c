import RegistryText.Value.Type
import RegistryText.Payload.HexList
import RegistryText.Encoding.Utf16

/-!
# The data of registry values

Data is a list of bytes; its declared type says how to view it.  Strings are
UTF-16 with the low byte first, and the characters of code 0 at their end are
no part of them.  **Data that is too short for the type of a number has no view
as one** and is shown as bytes.
-/

namespace RegistryText

/-- A view of data according to its type. -/
inductive ValueData where
  | none
  | string (text : Text)
  | expandString (text : Text)
  | binary (bytes : Bytes)
  | dword (value : UInt32)
  | dwordBigEndian (value : UInt32)
  | multiString (texts : List Text)
  | qword (value : UInt64)
  | unknown (bytes : Bytes)
  deriving DecidableEq, Repr

/-- The data of a string: its units and a closing zero unit. -/
def stringData (text : Text) : Bytes :=
  Utf16.littleEndian (Utf16.encode text ++ [0])

namespace ValueData

/-- The text in the data of a string, without the zeros at its end; a lone byte
at the end is passed over. -/
def textOf (bytes : Bytes) : Text :=
  let text := Utf16.decodeUnits (Utf16.wholeUnits bytes).1
  (text.reverse.dropWhile (· = '\x00')).reverse

/-- The number written by bytes, low byte first. -/
def littleEndian (bytes : Bytes) : Nat :=
  bytes.foldr (fun b n => b.toNat + 256 * n) 0

/-- The number written by bytes, high byte first. -/
def bigEndian (bytes : Bytes) : Nat :=
  littleEndian bytes.reverse

/-- View bytes as data of a type. -/
def ofBytes (type : ValueType) (bytes : Bytes) : ValueData :=
  if bytes = [] then none
  else match type with
    | .none | .binary => binary bytes
    | .string => string (textOf bytes)
    | .expandString => expandString (textOf bytes)
    | .multiString =>
        multiString ((Text.piecesAt '\x00' (textOf bytes)).filter fun t => !t.isEmpty)
    | .dword =>
        if bytes.length < 4 then unknown bytes
        else dword (UInt32.ofNat (littleEndian (bytes.take 4)))
    | .dwordBigEndian =>
        if bytes.length < 4 then unknown bytes
        else dwordBigEndian (UInt32.ofNat (bigEndian (bytes.take 4)))
    | .qword =>
        if bytes.length < 8 then unknown bytes
        else qword (UInt64.ofNat (littleEndian (bytes.take 8)))
    | _ => unknown bytes

/-- A number in decimal, and in upper case hexadecimal in brackets. -/
def showNumber (width n : Nat) : Text :=
  Text.decimal n ++ " (0x".toList ++ Text.hexPadded .upper width n ++ [')']

/-- The shown form of data. -/
def render : ValueData → Text
  | none => "(none)".toList
  | string text | expandString text => text
  | binary bytes | unknown bytes => HexList.write bytes
  | dword value | dwordBigEndian value => showNumber 8 value.toNat
  | qword value => showNumber 16 value.toNat
  | multiString texts => Text.joinWith ", ".toList texts

example : (ofBytes .dword [0x2A, 0, 0, 0]).render = "42 (0x0000002A)".toList := by decide

example : ofBytes .string (stringData "Baz".toList) = string "Baz".toList := by decide

end ValueData

end RegistryText
