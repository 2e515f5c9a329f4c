import RegistryText.CommandLine

/-!
# The program

Reads the file that the command line names, and writes what the command line
answers.  It knows the code pages that are spelled out and no others.
-/

namespace RegistryText

/-- The message of a failing system call. -/
def systemMessage (code : UInt32) (details : String) : Text :=
  details.capitalize.toList ++ " (os error ".toList ++
    Text.decimal code.toInt32.toInt.natAbs ++ [')']

/-- The message of an input error. -/
def inputMessage : IO.Error → Text
  | .inappropriateType _ code details | .permissionDenied _ code details
  | .invalidArgument _ code details | .resourceExhausted _ code details
  | .hardwareFault code details | .otherError code details => systemMessage code details
  | e => e.toString.toList

/-- The content of a file as a source, nothing if there is no such file. -/
def openSource (path : Text) : IO (Option Source) := do
  try
    let bytes ← IO.FS.readBinFile (String.ofList path)
    return some (Source.ofBytes bytes.toList)
  catch
    | .noFileOrDirectory .. => return none
    | e => return some ⟨[.failure (inputMessage e)], none⟩

end RegistryText

open RegistryText RegistryText.CommandLine in
/-- Answer the command line. -/
def main (arguments : List String) : IO UInt32 := do
  let request := Request.ofArguments [] (arguments.map String.toList)
  let file ← match request with
    | .importFile a => openSource a.file
    | _ => pure none
  let response := request.respond fun _ => file
  IO.print (String.ofList response.output)
  IO.eprint (String.ofList response.errors)
  return UInt32.ofNat response.exitStatus
