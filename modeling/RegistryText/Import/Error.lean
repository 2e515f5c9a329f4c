import RegistryText.Header
import RegistryText.Text.Hex
import RegistryText.Text.Quoted

/-!
# Errors that end an import

An import ends early when its input cannot be read or its header rules it out,
and it ends in an error after a whole structured file, whose dialects are
replayed but not yet imported in full.  Everything else that goes wrong is
confined to a line and goes into the report.
-/

namespace RegistryText

/-- Why an import failed. -/
inductive ImportError where
  /-- The input could not be read. -/
  | io (message : Text)
  /-- There is no file of this path. -/
  | fileNotFound (path : Text)
  /-- The input ends before its encoding is known. -/
  | inputTooShort (size : Nat)
  /-- The first line is no header of a registry file. -/
  | invalidHeader (found : Text)
  /-- The header begins like a known one and is none. -/
  | unsupportedHeader (found : Text)
  /-- The dialect is not imported in full. -/
  | notImplemented (dialect : Dialect)
  deriving DecidableEq, Repr

namespace ImportError

/-- The message of an error. -/
def message : ImportError → Text
  | io message => "I/O error: ".toList ++ message
  | fileNotFound path => "Unable to find the specified file: ".toList ++ path
  | inputTooShort size =>
      "Input too short: ".toList ++ Text.decimal size ++ " bytes (minimum: 2 bytes)".toList
  | invalidHeader found => "Invalid registry file header: ".toList ++ found.quoted
  | unsupportedHeader found => "Unsupported registry file header: ".toList ++ found.quoted
  | notImplemented dialect =>
      "Import of ".toList ++ dialect.name ++ " files is not yet implemented".toList

/-- Whether the header of the file is at fault. -/
def isHeaderError : ImportError → Bool
  | invalidHeader _ | unsupportedHeader _ => true
  | _ => false

/-- The error of a header line whose dialect cannot be imported. -/
def ofHeader (dialect : Dialect) (line : Text) : ImportError :=
  match dialect with
  | .unsupported => unsupportedHeader line.skipBlanks
  | _ => invalidHeader line.skipBlanks

end ImportError

end RegistryText
