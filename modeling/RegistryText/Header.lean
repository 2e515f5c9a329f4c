import RegistryText.Text.Blank

/-!
# Headers of registry files

The first line of a registry file names its dialect.  Three headers are known
exactly; any other line that begins like the oldest of them belongs to a
registry file that is not imported.  **Blanks in front of a header do not
count, everything behind it does**, and so does the case of letters.
-/

namespace RegistryText

/-- The dialect of a registry file. -/
inductive Dialect where
  /-- The flat dialect of Windows 3.1: one assignment a line. -/
  | windows31
  /-- The dialect of version 4: keys in brackets, named values. -/
  | version4
  /-- The dialect of version 5.00: keys in brackets, named values. -/
  | version5
  /-- A header that begins like a known one. -/
  | unsupported
  /-- No registry file. -/
  | invalid
  deriving DecidableEq, Repr

namespace Dialect

/-- The header of the Windows 3.1 dialect. -/
def windows31Header : Text := "REGEDIT".toList

/-- The header of the version 4 dialect. -/
def version4Header : Text := "REGEDIT4".toList

/-- The header of the version 5.00 dialect. -/
def version5Header : Text := "Windows Registry Editor Version 5.00".toList

/-- Whether the body is made of keys in brackets and named values. -/
def isStructured : Dialect → Bool
  | version4 | version5 => true
  | _ => false

/-- Whether the body is read at all. -/
def isImportable : Dialect → Bool
  | windows31 | version4 | version5 => true
  | _ => false

/-- The header of the dialect, if it has one. -/
def header? : Dialect → Option Text
  | windows31 => some windows31Header
  | version4 => some version4Header
  | version5 => some version5Header
  | unsupported | invalid => none

/-- The name of the dialect in messages. -/
def name : Dialect → Text
  | windows31 => "REGEDIT (Windows 3.1)".toList
  | version4 => "REGEDIT4".toList
  | version5 => "version 5.00".toList
  | unsupported => "unsupported REGEDIT".toList
  | invalid => "invalid".toList

/-- The dialect that a header line names. -/
def ofHeader (line : Text) : Dialect :=
  let header := line.skipBlanks
  if header = windows31Header then windows31
  else if header = version4Header then version4
  else if header = version5Header then version5
  else if header.startsWith windows31Header then unsupported
  else invalid

/-- A dialect is named by its own header. -/
theorem ofHeader_of_header? {d : Dialect} {header : Text} (h : d.header? = some header) :
    ofHeader header = d := by
  cases d <;> cases h <;> decide

example : ofHeader "REGEDIT4 ".toList = unsupported := by decide

example : ofHeader "regedit".toList = invalid := by decide

end Dialect

end RegistryText
