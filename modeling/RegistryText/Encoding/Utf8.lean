import RegistryText.Encoding.Decoder

/-!
# UTF-8

The decoder keeps the bits read so far, the number of bytes still owed and the
bounds of the next byte.  The bounds are narrower than those of a continuation
byte only behind E0, ED, F0 and F4, where they shut out overlong forms,
surrogates and what lies above the last code point.  **Each maximal ill-formed
part becomes one replacement character**: a byte outside its bounds ends the
part in front of it and is then read afresh.
-/

namespace RegistryText.Utf8

/-- An unfinished character. -/
structure Pending where
  /-- The bits read so far. -/
  value : Nat
  /-- The number of bytes that complete the character, less one. -/
  more : Nat
  /-- The least byte that may come next. -/
  low : UInt8
  /-- The greatest byte that may come next. -/
  high : UInt8
  deriving DecidableEq, Repr

/-- Read a byte between two characters. -/
def lead (b : UInt8) : Text × Option Pending :=
  if b < 0x80 then ([Char.ofNat b.toNat], none)
  else if b < 0xC2 then ([replacementChar], none)
  else if b < 0xE0 then ([], some ⟨b.toNat - 0xC0, 0, 0x80, 0xBF⟩)
  else if b < 0xF0 then
    let low := if b = 0xE0 then 0xA0 else 0x80
    let high := if b = 0xED then 0x9F else 0xBF
    ([], some ⟨b.toNat - 0xE0, 1, low, high⟩)
  else if b < 0xF5 then
    let low := if b = 0xF0 then 0x90 else 0x80
    let high := if b = 0xF4 then 0x8F else 0xBF
    ([], some ⟨b.toNat - 0xF0, 2, low, high⟩)
  else ([replacementChar], none)

/-- Read one byte. -/
def step : Option Pending → UInt8 → Text × Option Pending
  | none, b => lead b
  | some p, b =>
      if p.low ≤ b ∧ b ≤ p.high then
        let value := 64 * p.value + (b.toNat - 0x80)
        match p.more with
        | 0 => ([Char.ofNat value], none)
        | more + 1 => ([], some ⟨value, more, 0x80, 0xBF⟩)
      else
        let r := lead b
        (replacementChar :: r.1, r.2)

/-- The UTF-8 decoder. -/
def decoder : Decoder UInt8 (Option Pending) where
  start := none
  step := step
  close p := if p.isSome then [replacementChar] else []

/-- Decode bytes as UTF-8. -/
def decode (bytes : Bytes) : Text :=
  decoder.decode bytes

/-- The UTF-8 form of a text. -/
def encode (t : Text) : Bytes :=
  t.flatMap String.utf8EncodeChar

example : decode (encode "aé€😀".toList) = "aé€😀".toList := by decide

example : decode [0xF0, 0x9F, 0x98, 0x41] = [replacementChar, 'A'] := by decide

end RegistryText.Utf8
