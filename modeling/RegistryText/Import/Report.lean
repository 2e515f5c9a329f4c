import RegistryText.Encoding.FileEncoding
import RegistryText.Header
import RegistryText.Store.Basic

/-!
# Reports of an import

A report counts what an import did and lists what it had to skip.  A problem of
a line makes the rest of that line void; a refusal of the store is noted and
the import goes on.
-/

namespace RegistryText

/-- What went wrong on a line. -/
inductive DiagnosticKind where
  /-- A key in brackets without a closing bracket, or with a blank in front. -/
  | malformedKey
  /-- The store did not open the key. -/
  | keyOpenFailed (path : Text) (cause : StoreError)
  /-- The line asks for the deletion of a key. -/
  | keyDeletionUnsupported (path : Text)
  /-- No quote closes the name of the value. -/
  | invalidValueName
  /-- No equals sign follows the name of the value. -/
  | missingAssignment
  /-- The line asks for the deletion of a value. -/
  | valueDeletionUnsupported
  /-- The data begins with no type tag. -/
  | unknownDataType
  /-- A backslash stands in front of a character that needs none. -/
  | unknownEscape (escaped : Char)
  /-- A string that no quote closes, or that is not the end of its line. -/
  | invalidStringData
  /-- The payload is no doubleword. -/
  | invalidDwordData
  /-- The payload is no list of bytes, or its continuation is missing. -/
  | invalidHexData
  /-- The store did not set the value. -/
  | setValueFailed (cause : StoreError)
  deriving DecidableEq, Repr

/-- The message of a problem. -/
def DiagnosticKind.message : DiagnosticKind → Text
  | malformedKey => "malformed key name".toList
  | keyOpenFailed path cause =>
      "unable to open the registry key '".toList ++ path ++ "': ".toList ++ cause.message
  | keyDeletionUnsupported path =>
      "key deletion is not implemented ('".toList ++ path ++ "')".toList
  | invalidValueName => "unterminated value name".toList
  | missingAssignment => "value name without '='".toList
  | valueDeletionUnsupported => "value deletion is not implemented".toList
  | unknownDataType => "unrecognized data type".toList
  | unknownEscape escaped => "unrecognized escape sequence '\\".toList ++ [escaped, '\'']
  | invalidStringData => "invalid string data".toList
  | invalidDwordData => "invalid dword data".toList
  | invalidHexData => "invalid hex data".toList
  | setValueFailed cause => "unable to set the value: ".toList ++ cause.message

/-- A problem and the number of its line. -/
structure Diagnostic where
  /-- The number of the line, the header being line 1. -/
  line : Nat
  /-- What went wrong. -/
  kind : DiagnosticKind
  deriving DecidableEq, Repr

/-- The message of a diagnostic. -/
def Diagnostic.message (d : Diagnostic) : Text :=
  "line ".toList ++ Text.decimal d.line ++ ": ".toList ++ d.kind.message

/-- The report of an import. -/
structure ImportReport where
  /-- The encoding of the input. -/
  encoding : FileEncoding
  /-- The dialect of the header, once it has been read. -/
  dialect : Option Dialect := none
  /-- The number of lines read, the header included. -/
  lines : Nat := 0
  /-- The number of keys opened. -/
  keysOpened : Nat := 0
  /-- The number of values set. -/
  valuesWritten : Nat := 0
  /-- The problems, in the order of the input. -/
  diagnostics : List Diagnostic := []
  deriving DecidableEq, Repr

/-- Whether there was no problem. -/
def ImportReport.isClean (report : ImportReport) : Bool :=
  report.diagnostics.isEmpty

/-- The problems of chosen kinds. -/
def ImportReport.matching (report : ImportReport) (chosen : DiagnosticKind → Bool) :
    List Diagnostic :=
  report.diagnostics.filter fun d => chosen d.kind

end RegistryText
