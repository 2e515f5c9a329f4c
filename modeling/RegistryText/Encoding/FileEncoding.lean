import RegistryText.Encoding.CodePage

/-!
# The encoding of a file

A registry file is wide, that is UTF-16 with the low byte first, when it begins
with the byte order mark FF FE, and narrow otherwise.  Narrow text is in the
code page that the reader of the file names.  The mark itself is not part of
the text.

**Lines are cut between code units**, before anything is decoded: a code unit
is one byte of narrow and two bytes of wide text.  Here both are 16-bit words,
so that one rule finds the ends of lines in either encoding.
-/

namespace RegistryText

/-- The encoding of a registry file. -/
inductive FileEncoding where
  | narrow
  | wide
  deriving DecidableEq, Repr

namespace FileEncoding

/-- The encoding that the first two bytes of a file announce. -/
def detect (first second : UInt8) : FileEncoding :=
  if first = 0xFF ∧ second = 0xFE then .wide else .narrow

/-- The number of bytes of a code unit. -/
def unitSize : FileEncoding → Nat
  | .narrow => 1
  | .wide => 2

/-- Decode bytes; the code page is that of narrow text. -/
def decode (encoding : FileEncoding) (page : CodePage) (bytes : Bytes) : Text :=
  match encoding with
  | .narrow => page.decode bytes
  | .wide => Utf16.decode .little bytes

/-- The whole code units of bytes, and the lone byte at the end, if any. -/
def wholeUnits (encoding : FileEncoding) (bytes : Bytes) : List UInt16 × Option UInt8 :=
  match encoding with
  | .narrow => (bytes.map UInt8.toUInt16, none)
  | .wide => Utf16.wholeUnits bytes

theorem length_wholeUnits_le (encoding : FileEncoding) (bytes : Bytes) :
    (encoding.wholeUnits bytes).1.length + (encoding.wholeUnits bytes).2.toList.length ≤
      bytes.length := by
  cases encoding with
  | narrow => simp [wholeUnits]
  | wide => exact Utf16.length_wholeUnits_le bytes

/-- The bytes of code units. -/
def bytesOf (encoding : FileEncoding) (units : List UInt16) : Bytes :=
  match encoding with
  | .narrow => units.map UInt16.toUInt8
  | .wide => Utf16.littleEndian units

/-- Decode code units. -/
def decodeUnits (encoding : FileEncoding) (page : CodePage) (units : List UInt16) : Text :=
  encoding.decode page (encoding.bytesOf units)

end FileEncoding

end RegistryText
