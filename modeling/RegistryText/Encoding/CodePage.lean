import RegistryText.Encoding.SingleBytePage
import RegistryText.Encoding.Utf8
import RegistryText.Encoding.Utf16
import RegistryText.Text.Blank

/-!
# Code pages

A file without a byte order mark is text in a code page that its reader names
by a label.  A page has one name and several labels; labels are compared
without the white space around them and without regard to ASCII case.

The pages come from a library of the Encoding Standard.  Some are spelled out
here; **of the others, such as the remaining single-byte pages and those of
Chinese, Japanese and Korean, nothing is known but that no byte gives more than
one character**.  Which others there are, and by what labels they are found, is
up to the library.
-/

namespace RegistryText

/-- A code page of the library that is not spelled out. -/
structure OtherPage where
  /-- The name of the page. -/
  name : Text
  /-- The labels of the page, in lower case. -/
  labels : List String
  /-- Decode bytes in the page. -/
  decode : Bytes → Text
  length_le : ∀ bytes, (decode bytes).length ≤ bytes.length

/-- A code page of files without a byte order mark. -/
inductive CodePage where
  | singleByte (page : SingleBytePage)
  | utf8
  | utf16 (order : ByteOrder)
  | other (page : OtherPage)

namespace CodePage

/-- All code pages that are spelled out. -/
def all : List CodePage :=
  [.singleByte .windows1252, .singleByte .windows1251, .singleByte .windows1250,
   .singleByte .windows1253, .singleByte .iso88592, .singleByte .koi8R,
   .singleByte .ibm866, .singleByte .userDefined, .utf8, .utf16 .little, .utf16 .big]

/-- The name of the page. -/
def name : CodePage → Text
  | .singleByte .windows1252 => "windows-1252".toList
  | .singleByte .windows1251 => "windows-1251".toList
  | .singleByte .windows1250 => "windows-1250".toList
  | .singleByte .windows1253 => "windows-1253".toList
  | .singleByte .iso88592 => "ISO-8859-2".toList
  | .singleByte .koi8R => "KOI8-R".toList
  | .singleByte .ibm866 => "IBM866".toList
  | .singleByte .userDefined => "x-user-defined".toList
  | .utf8 => "UTF-8".toList
  | .utf16 .little => "UTF-16LE".toList
  | .utf16 .big => "UTF-16BE".toList
  | .other page => page.name

/-- The labels of the page, in lower case. -/
def labels : CodePage → List String
  | .singleByte .windows1252 =>
      ["windows-1252", "latin1", "l1", "ascii", "us-ascii", "cp1252", "x-cp1252",
       "iso-8859-1", "iso8859-1", "iso88591", "iso_8859-1", "iso_8859-1:1987", "iso-ir-100",
       "csisolatin1", "ansi_x3.4-1968", "cp819", "ibm819"]
  | .singleByte .windows1251 => ["windows-1251", "cp1251", "x-cp1251"]
  | .singleByte .windows1250 => ["windows-1250", "cp1250", "x-cp1250"]
  | .singleByte .windows1253 => ["windows-1253", "cp1253", "x-cp1253"]
  | .singleByte .iso88592 =>
      ["iso-8859-2", "iso8859-2", "iso88592", "iso_8859-2", "iso_8859-2:1987", "latin2", "l2",
       "csisolatin2", "iso-ir-101"]
  | .singleByte .koi8R => ["koi8-r", "koi", "koi8", "koi8_r", "cskoi8r"]
  | .singleByte .ibm866 => ["ibm866", "cp866", "866", "csibm866"]
  | .singleByte .userDefined => ["x-user-defined"]
  | .utf8 =>
      ["utf-8", "utf8", "unicode-1-1-utf-8", "unicode11utf8", "unicode20utf8",
       "x-unicode20utf8"]
  | .utf16 .little =>
      ["utf-16le", "utf-16", "ucs-2", "unicode", "unicodefeff", "csunicode",
       "iso-10646-ucs-2"]
  | .utf16 .big => ["utf-16be", "unicodefffe"]
  | .other page => page.labels

/-- The page of a label, given the pages of the library that are not spelled out. -/
def ofLabel? (others : List OtherPage) (label : Text) : Option CodePage :=
  let wanted := label.trimWhiteSpace.map Text.asciiLower
  (all ++ others.map other).find? fun page => page.labels.any fun known => known.toList == wanted

/-- Decode bytes in the page. -/
def decode : CodePage → Bytes → Text
  | .singleByte page, bytes => page.decode bytes
  | .utf8, bytes => Utf8.decode bytes
  | .utf16 order, bytes => Utf16.decode order bytes
  | .other page, bytes => page.decode bytes

end CodePage

end RegistryText
