import RegistryText.Import.Run
import RegistryText.Store.Dump
import RegistryText.Store.Snapshot

/-!
# The command line

The program imports one file into a store in memory and can show the store
afterwards, as a listing or as JSON.  Arguments are read from left to right.  An
option is a name behind two minus signs or a letter behind one; behind `--`
everything is a file.  **The first argument that asks for help or for the
version, or that cannot be accepted, decides**; what is missing or does not go
together is found at the end.
-/

namespace RegistryText.CommandLine

/-- What the program is asked to import and to show. -/
structure Arguments where
  /-- The path of the file. -/
  file : Text
  /-- The code page of narrow text. -/
  page : CodePage
  /-- Whether to show a listing of the store. -/
  dump : Bool
  /-- Whether to show the store as JSON. -/
  json : Bool

/-- What the arguments ask for. -/
inductive Request where
  /-- An import. -/
  | importFile (arguments : Arguments)
  /-- A text about the arguments. -/
  | help
  /-- The name and the version of the program. -/
  | version
  /-- Nothing that the program can do. -/
  | refused

/-- What the arguments read so far say. -/
structure Given where
  /-- The path of the file. -/
  file : Option Text := none
  /-- The code page. -/
  page : Option CodePage := none
  /-- Whether a listing is asked for. -/
  dump : Bool := false
  /-- Whether JSON is asked for. -/
  json : Bool := false

namespace Given

/-- Accept a file, unless there is one or its path is empty. -/
def withFile? (given : Given) (path : Text) : Option Given :=
  if given.file.isSome || path.isEmpty then none else some { given with file := some path }

/-- Accept the label of a code page, unless there is one or it is unknown. -/
def withLabel? (given : Given) (others : List OtherPage) (label : Text) : Option Given :=
  if given.page.isSome then none
  else (CodePage.ofLabel? others label).map fun page => { given with page := some page }

/-- What is asked for when no argument is left. -/
def request (given : Given) : Request :=
  match given.file with
  | none => .refused
  | some file =>
      if given.dump && given.json then .refused
      else .importFile
        ⟨file, given.page.getD (.singleByte .windows1252), given.dump, given.json⟩

/-- Accept an option of a name without a value; an option that shows the store
is accepted once. -/
def withOption (given : Given) (name : Text) : Except Request Given :=
  if name = "dump".toList && !given.dump then .ok { given with dump := true }
  else if name = "json".toList && !given.json then .ok { given with json := true }
  else if name = "verbose".toList then .ok given
  else if name = "help".toList then .error .help
  else if name = "version".toList then .error .version
  else .error .refused

/-- Accept options of one letter. -/
def withLetters (given : Given) : Text → Except Request Given
  | [] => .ok given
  | c :: rest =>
      if c = 'v' then given.withLetters rest
      else if c = 'h' then .error .help
      else if c = 'V' then .error .version
      else .error .refused

/-- Accept files only. -/
def readFiles (given : Given) : List Text → Request
  | [] => given.request
  | path :: rest =>
      match given.withFile? path with
      | none => .refused
      | some given => given.readFiles rest

end Given

/-- What an argument is. -/
inductive Argument where
  /-- The sign that only files follow. -/
  | filesOnly
  /-- The code page; its label is attached, or it is the next argument. -/
  | codePage (label : Option Text)
  /-- An option of a name without a value. -/
  | option (name : Text)
  /-- Options of one letter. -/
  | letters (letters : Text)
  /-- A file. -/
  | file (path : Text)
  /-- An option with a value that takes none. -/
  | malformed
  deriving DecidableEq, Repr

/-- Tell what an argument is. -/
def Argument.ofText (text : Text) : Argument :=
  match text with
  | '-' :: '-' :: long =>
      let name := long.takeWhile (· ≠ '=')
      let value := Text.after? ['='] (long.dropWhile (· ≠ '='))
      if long = [] then .filesOnly
      else if name = "code-page".toList then .codePage value
      else if value.isSome then .malformed
      else .option name
  | '-' :: c :: more => .letters (c :: more)
  | path => .file path

/-- Read arguments, given what those in front of them say, and the code pages that are not
spelled out. -/
def readArguments (others : List OtherPage) (given : Given) : List Text → Request
  | [] => given.request
  | text :: rest =>
      match Argument.ofText text with
      | .filesOnly => given.readFiles rest
      | .codePage (some label) =>
          match given.withLabel? others label with
          | none => .refused
          | some given => readArguments others given rest
      | .codePage none =>
          match rest with
          | [] => .refused
          | label :: rest =>
              match given.withLabel? others label with
              | none => .refused
              | some given => readArguments others given rest
      | .option name =>
          match given.withOption name with
          | .error request => request
          | .ok given => readArguments others given rest
      | .letters letters =>
          match given.withLetters letters with
          | .error request => request
          | .ok given => readArguments others given rest
      | .file path =>
          match given.withFile? path with
          | none => .refused
          | some given => readArguments others given rest
      | .malformed => .refused

/-- What the arguments of the program ask for, given the code pages that are not spelled out. -/
def Request.ofArguments (others : List OtherPage) (arguments : List Text) : Request :=
  readArguments others {} arguments

/-- What a run of the program leaves behind. -/
structure Response where
  /-- The exit status. -/
  exitStatus : Nat
  /-- What was written to the standard output. -/
  output : Text
  /-- What was written to the standard error. -/
  errors : Text
  deriving DecidableEq, Repr

/-- The name and the version of the program. -/
def versionLine : Text :=
  "reg-import 0.1.0\n".toList

/-- How the program is called. -/
def usage : Text :=
  ("Usage: reg-import [--code-page LABEL] [--dump | --json] [-v]... FILE\n" ++
   "Import a Windows registry file (.reg)\n").toList

/-- The line that reports the error of an import; a header error names the
file. -/
def errorLine (file : Text) (e : ImportError) : Text :=
  "Error: ".toList ++ (if e.isHeaderError then file ++ ": ".toList else []) ++ e.message ++ ['\n']

/-- Import a file and show the store, given how files are opened.  The store is
shown after a failed import as well. -/
def Arguments.respond (a : Arguments) (openFile : Text → Option Source) : Response :=
  let options : ImportOptions := { page := a.page }
  let r := importFile openFile a.file ({} : MemoryStore) options
  let shown := (if a.dump then r.2.listing else []) ++
    (if a.json then r.2.toJson ++ ['\n'] else [])
  match r.1 with
  | .ok _ => ⟨0, shown, []⟩
  | .error e => ⟨1, shown, errorLine a.file e⟩

/-- Do what is asked for, given how files are opened. -/
def Request.respond (openFile : Text → Option Source) : Request → Response
  | .importFile a => a.respond openFile
  | .help => ⟨0, usage, []⟩
  | .version => ⟨0, versionLine, []⟩
  | .refused => ⟨2, [], usage⟩

example : Request.ofArguments [] ["--dump".toList, "--".toList, "--json".toList] =
    .importFile ⟨"--json".toList, .singleByte .windows1252, true, false⟩ := by rfl

example : Request.ofArguments [] ["a".toList, "b".toList, "--version".toList] = .refused := by
  rfl

end RegistryText.CommandLine
