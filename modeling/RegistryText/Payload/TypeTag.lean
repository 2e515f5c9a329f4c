import RegistryText.Text.Hex
import RegistryText.Value.Type

/-!
# Type tags

The data of a value line begins with a tag that says how the payload behind it
is written and which type the value declares: a quote for a string, `dword:`,
`hex:` for binary data, and `hex(N):` for bytes of the type with the code `N`.
The code is a run of hexadecimal digits of any length whose value has 32 bits.
-/

namespace RegistryText

/-- How a payload is written. -/
inductive PayloadForm where
  /-- An escaped text up to its closing quote. -/
  | escapedText
  /-- A doubleword in hexadecimal digits. -/
  | dword
  /-- A list of bytes in hexadecimal digits. -/
  | hexList
  deriving DecidableEq, Repr

/-- A type tag. -/
structure TypeTag where
  /-- The type that the value declares. -/
  declared : ValueType
  /-- How the payload is written. -/
  payload : PayloadForm
  deriving DecidableEq, Repr

namespace TypeTag

/-- Read the part of a `hex(N):` tag behind its bracket, and return the tag
with the payload. -/
def readTyped? (t : Text) : Option (TypeTag × Text) :=
  let digits := t.takeWhile isHexDigit
  match Text.after? "):".toList (t.dropWhile isHexDigit) with
  | none => none
  | some payload =>
      let code := Text.hexNumber digits
      if digits = [] then none
      else if code < UInt32.size then
        some (⟨ValueType.ofCode (UInt32.ofNat code), .hexList⟩, payload)
      else none

/-- Read the tag at the start of a text, and return it with the payload. -/
def read? (t : Text) : Option (TypeTag × Text) :=
  match Text.after? "\"".toList t with
  | some payload => some (⟨.string, .escapedText⟩, payload)
  | none =>
    match Text.after? "hex:".toList t with
    | some payload => some (⟨.binary, .hexList⟩, payload)
    | none =>
      match Text.after? "dword:".toList t with
      | some payload => some (⟨.dword, .dword⟩, payload)
      | none =>
        match Text.after? "hex(".toList t with
        | some rest => readTyped? rest
        | none => none

example : read? "hex(7):41,00".toList = some (⟨.multiString, .hexList⟩, "41,00".toList) := by
  decide

example : read? "hex(100000000):".toList = none := by decide

end TypeTag

end RegistryText
