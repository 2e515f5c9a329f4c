import RegistryText.Encoding.Decoder

/-!
# UTF-16

A character is one 16-bit unit or a pair of surrogates, high before low.  The
decoder of units keeps a high surrogate until the next unit tells whether it
is paired; **each unpaired surrogate becomes one replacement character**.

The decoder of bytes also keeps the first byte of a unit.  A lone byte at the
end is replaced as well, and together with an unpaired high surrogate right in
front of it by one replacement character for both.
-/

namespace RegistryText

/-- The order of the two bytes of a 16-bit unit. -/
inductive ByteOrder where
  | little
  | big
  deriving DecidableEq, Repr

/-- The unit of two bytes in the given order. -/
def ByteOrder.unit (order : ByteOrder) (a b : UInt8) : UInt16 :=
  match order with
  | .little => UInt16.ofNat (a.toNat + 256 * b.toNat)
  | .big => UInt16.ofNat (256 * a.toNat + b.toNat)

namespace Utf16

/-- Whether a unit is a high surrogate. -/
def isHigh (u : UInt16) : Bool :=
  0xD800 ≤ u && u < 0xDC00

/-- Whether a unit is a low surrogate. -/
def isLow (u : UInt16) : Bool :=
  0xDC00 ≤ u && u < 0xE000

/-- The character of a pair of surrogates. -/
def pairChar (high low : UInt16) : Char :=
  Char.ofNat (0x10000 + 1024 * (high.toNat - 0xD800) + (low.toNat - 0xDC00))

/-- Read a unit between two characters. -/
def lead (u : UInt16) : Text × Option UInt16 :=
  if isHigh u then ([], some u)
  else if isLow u then ([replacementChar], none)
  else ([Char.ofNat u.toNat], none)

/-- Read one unit behind a high surrogate that waits for its partner, if
any. -/
def step : Option UInt16 → UInt16 → Text × Option UInt16
  | none, u => lead u
  | some high, u =>
      if isLow u then ([pairChar high u], none)
      else
        let r := lead u
        (replacementChar :: r.1, r.2)

/-- The decoder of units. -/
def unitDecoder : Decoder UInt16 (Option UInt16) where
  start := none
  step := step
  close high := if high.isSome then [replacementChar] else []

/-- Decode units as UTF-16. -/
def decodeUnits (units : List UInt16) : Text :=
  unitDecoder.decode units

/-- What the decoder of bytes keeps between two bytes. -/
structure Pending where
  /-- The first byte of a unit. -/
  first : Option UInt8
  /-- A high surrogate that waits for its partner. -/
  high : Option UInt16
  deriving DecidableEq, Repr

/-- The decoder of bytes. -/
def byteDecoder (order : ByteOrder) : Decoder UInt8 Pending where
  start := ⟨none, none⟩
  step p b :=
    match p.first with
    | none => ([], ⟨some b, p.high⟩)
    | some a =>
        let r := step p.high (order.unit a b)
        (r.1, ⟨none, r.2⟩)
  close p := if p.first.isSome || p.high.isSome then [replacementChar] else []

/-- Decode bytes as UTF-16. -/
def decode (order : ByteOrder) (bytes : Bytes) : Text :=
  (byteDecoder order).decode bytes

/-- The units of a character. -/
def encodeChar (c : Char) : List UInt16 :=
  let n := c.toNat
  if n < 0x10000 then [UInt16.ofNat n]
  else [UInt16.ofNat (0xD800 + (n - 0x10000) / 1024),
        UInt16.ofNat (0xDC00 + (n - 0x10000) % 1024)]

/-- The units of a text. -/
def encode (t : Text) : List UInt16 :=
  t.flatMap encodeChar

/-- The bytes of units, low byte first. -/
def littleEndian (units : List UInt16) : Bytes :=
  units.flatMap fun u : UInt16 => [UInt8.ofNat u.toNat, UInt8.ofNat (u.toNat / 256)]

/-- The whole units of bytes, low byte first, and the lone byte at the end, if
any. -/
def wholeUnits : Bytes → List UInt16 × Option UInt8
  | [] => ([], none)
  | [a] => ([], some a)
  | a :: b :: rest =>
      let r := wholeUnits rest
      (ByteOrder.little.unit a b :: r.1, r.2)

/-- Whole units and the lone byte take no more than the bytes they come from. -/
theorem length_wholeUnits_le : ∀ bytes : Bytes,
    (wholeUnits bytes).1.length + (wholeUnits bytes).2.toList.length ≤ bytes.length
  | [] => by simp [wholeUnits]
  | [_] => by simp [wholeUnits]
  | _ :: _ :: rest => by
      have := length_wholeUnits_le rest
      simp only [wholeUnits, List.length_cons]
      omega

example : decodeUnits (encode "a€😀".toList) = "a€😀".toList := by decide

example : decode .little (littleEndian (encode "a€😀".toList)) = "a€😀".toList := by decide

example : decode .big [0xD8, 0x3D, 0x41] = [replacementChar] := by decide

end Utf16

end RegistryText
