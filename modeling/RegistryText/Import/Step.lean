import RegistryText.Import.State
import RegistryText.Payload.Dword
import RegistryText.Payload.Escaped
import RegistryText.Payload.HexList
import RegistryText.Payload.TypeTag
import RegistryText.Value.Data

/-!
# The steps of an import

Each state has one step.  A step is given a place in the current line and
answers with the place where the next step goes on, unless the lines are over
or the import fails.  The steps in front of a line take a new line and pass
over the place they are given.

In a structured file a line is a key in brackets, or a value: its name, an
equals sign, and its data.  **A problem voids the rest of its line and nothing
else**: the import goes on in front of the next line with the same key open.  A
line that begins with anything else is passed over.

In a file of the Windows 3.1 dialect each line is a key below the classes root
and the string of its default value.
-/

namespace RegistryText

/-- How an import goes on after a step. -/
inductive Progress where
  /-- At a place in the current line. -/
  | proceed (place : Nat)
  /-- The lines are over. -/
  | finished
  /-- The import fails. -/
  | failed (error : ImportError)
  deriving DecidableEq, Repr

namespace Importer

variable {ρ σ κ : Type} [LineSupply ρ] [RegistryStore σ κ]

/-! ### The header -/

/-- The importer with the dialect of its header, which the report tells too. -/
def named (m : Importer ρ σ κ) (d : Dialect) : Importer ρ σ κ :=
  { m with dialect := some d, report := { m.report with dialect := some d } }

/-- Note the dialect of the current line and go on with the body, if it has
one. -/
def classify (m : Importer ρ σ κ) : Progress × Importer ρ σ κ :=
  let d := Dialect.ofHeader m.line
  if !d.isImportable then (.failed (ImportError.ofHeader d m.line), m.named d)
  else if d.isStructured then (.proceed 0, (m.named d).enter .lineStart)
  else (.proceed 0, (m.named d).enter .windows31Line)

/-- Read the header; an input without lines has an empty one. -/
def headerStep (m : Importer ρ σ κ) : Progress × Importer ρ σ κ :=
  match m.fetch with
  | (.error e, m) => (.failed e, m)
  | (.ok true, m) => m.classify
  | (.ok false, m) => { m with line := [] }.classify

/-! ### Lines of the Windows 3.1 dialect -/

/-- What a line of the Windows 3.1 dialect begins with. -/
def classesRootToken : Text := RootKey.classesRoot.name

/-- The string behind the key of a line: blanks, one equals sign and one space
behind it are left out. -/
def windows31Value (behind : Text) : Text :=
  let t := behind.skipBlanks
  let t := (Text.after? ['='] t).getD t
  (Text.after? [' '] t).getD t

/-- Read the key and the string of the current line. -/
def windows31Assignment (m : Importer ρ σ κ) : Progress × Importer ρ σ κ :=
  let path := m.line.takeWhile fun c => !isWhiteSpace c
  let value := windows31Value (m.line.dropWhile fun c => !isWhiteSpace c)
  match m.openKey path with
  | (false, m) => (.proceed (Text.byteLength path), m)
  | (true, m) =>
      (.proceed (m.line.placeOf value),
       { m with
         valueName := none
         dataType := .string
         staged := some (stringData value)
         state := .writing })

/-- Take a line and read it if it begins with the classes root. -/
def windows31Step (m : Importer ρ σ κ) : Progress × Importer ρ σ κ :=
  match m.fetch with
  | (.error e, m) => (.failed e, m)
  | (.ok false, m) => (.finished, m)
  | (.ok true, m) =>
      if m.line.startsWith classesRootToken then m.windows31Assignment
      else (.proceed 0, m)

/-! ### Lines of a structured file -/

/-- Look at the first character of the current line that is no blank. -/
def dispatch (m : Importer ρ σ κ) : Progress × Importer ρ σ κ :=
  let rest := m.line.skipBlanks
  let place := m.line.placeOf rest
  match rest with
  | '[' :: _ => (.proceed (place + 1), m.enter .keyName)
  | '@' :: _ => (.proceed place, m.enter .defaultName)
  | '"' :: _ => (.proceed (place + 1), m.enter .quotedName)
  | _ => (.proceed place, m)

/-- Take a line and look at its first character. -/
def lineStartStep (m : Importer ρ σ κ) : Progress × Importer ρ σ κ :=
  match m.fetch with
  | (.error e, m) => (.failed e, m)
  | (.ok false, m) => (.finished, m)
  | (.ok true, m) => m.dispatch

/-- The name of a key, up to the last closing bracket, unless it begins with a
blank. -/
def bracketed? (t : Text) : Option Text :=
  if (t.head?.map isBlank).getD false then none else t.beforeLast? ']'

/-- Read the name of a key and open the key; the name of a key to be deleted
begins with a minus sign. -/
def keyNameStep (m : Importer ρ σ κ) (place : Nat) : Progress × Importer ρ σ κ :=
  match bracketed? (m.line.fromPlace place) with
  | none => (.proceed place, m.giveUp .malformedKey)
  | some name =>
      match Text.after? ['-'] name with
      | some path => (.proceed place, m.giveUp (.keyDeletionUnsupported path))
      | none => (.proceed place, (m.openKey name).2.enter .lineStart)

/-- Pass over the sign of the default value. -/
def defaultNameStep (m : Importer ρ σ κ) (place : Nat) : Progress × Importer ρ σ κ :=
  (.proceed (place + 1), { m with valueName := none, state := .assignment })

/-- Read the name of a value. -/
def quotedNameStep (m : Importer ρ σ κ) (place : Nat) : Progress × Importer ρ σ κ :=
  let unnamed := { m with valueName := none }
  match Escaped.read? (m.line.fromPlace place) with
  | none => (.proceed place, unnamed.giveUp .invalidValueName)
  | some name =>
      (.proceed (m.line.placeOf name.rest),
       { unnamed.note (name.unknown.map .unknownEscape) with
         valueName := some name.text
         state := .assignment })

/-- Read the equals sign and cut the blanks at the end of the line; the data of
a value to be deleted begins with a minus sign. -/
def assignmentStep (m : Importer ρ σ κ) (place : Nat) : Progress × Importer ρ σ κ :=
  match Text.after? ['='] (m.line.fromPlace place).skipBlanks with
  | none => (.proceed place, m.giveUp .missingAssignment)
  | some behind =>
      let data := behind.skipBlanks
      let start := m.line.placeOf data
      let cut := { m with line := m.line.untilPlace (start + data.trimBlanksRight.byteLength) }
      if (cut.line.fromPlace start).startsWith ['-'] then
        (.proceed start, cut.giveUp .valueDeletionUnsupported)
      else (.proceed start, cut.enter .typeTag)

/-- The state in front of a payload. -/
def payloadState : PayloadForm → ImportState
  | .escapedText => .stringPayload
  | .dword => .dwordPayload
  | .hexList => .hexPayload

/-- Read the type tag. -/
def typeTagStep (m : Importer ρ σ κ) (place : Nat) : Progress × Importer ρ σ κ :=
  match TypeTag.read? (m.line.fromPlace place) with
  | none => (.proceed place, m.giveUp .unknownDataType)
  | some (tag, payload) =>
      (.proceed (m.line.placeOf payload),
       { m with dataType := tag.declared, state := payloadState tag.payload })

/-- Make data ready to be set. -/
def stage (m : Importer ρ σ κ) (data : Bytes) : Importer ρ σ κ :=
  { m with staged := some data, state := .writing }

/-- Read the payload of a string; only blanks and a comment may follow it. -/
def stringStep (m : Importer ρ σ κ) (place : Nat) : Progress × Importer ρ σ κ :=
  match Escaped.read? (m.line.fromPlace place) with
  | none => (.proceed place, m.abandon .invalidStringData)
  | some s =>
      let noted := m.note (s.unknown.map .unknownEscape)
      let next := m.line.placeOf s.rest
      if s.rest.skipBlanks.isEmptyOrComment then (.proceed next, noted.stage (stringData s.text))
      else (.proceed next, noted.abandon .invalidStringData)

/-- Read the payload of a doubleword. -/
def dwordStep (m : Importer ρ σ κ) (place : Nat) : Progress × Importer ρ σ κ :=
  match Dword.read? (m.line.fromPlace place) with
  | none => (.proceed place, m.abandon .invalidDwordData)
  | some value => (.proceed place, m.stage (Dword.bytes value))

/-- Finish a list of bytes of which one line has been read: it ended as
`ending` says, and `bytes` have been read so far.  A continued list takes a new
line; a comment on a line of its own does not end it. -/
def continueList (m : Importer ρ σ κ) (ending : Option HexList.Ending) (bytes : Bytes) :
    Progress × Importer ρ σ κ :=
  match ending with
  | none => (.proceed 0, m.abandon .invalidHexData)
  | some .complete => (.proceed m.line.byteLength, m.stage bytes)
  | some .continued =>
      match h : m.fetch with
      | (.error e, m') => (.failed e, m')
      | (.ok false, m') => (.finished, m'.abandon .invalidHexData)
      | (.ok true, m') =>
          have : LineSupply.size m'.lines < LineSupply.size m.lines := (size_fetch h).1
          let rest := m'.line.skipBlanks
          if rest.startsWith [';'] then m'.continueList (some .continued) bytes
          else
            let r := HexList.readLine rest
            m'.continueList r.1 (bytes ++ r.2)
termination_by LineSupply.size m.lines

omit [RegistryStore σ κ] in
/-- A comment on a line of its own does not end a continued list. -/
theorem continueList_of_comment {m m' : Importer ρ σ κ} {bytes : Bytes}
    (hfetch : m.fetch = (.ok true, m')) (hcomment : m'.line.skipBlanks.startsWith [';'] = true) :
    m.continueList (some .continued) bytes = m'.continueList (some .continued) bytes := by
  rw [continueList]
  split <;> simp_all

omit [RegistryStore σ κ] in
/-- A continued list goes on with the bytes of the next line. -/
theorem continueList_of_line {m m' : Importer ρ σ κ} {bytes : Bytes}
    (hfetch : m.fetch = (.ok true, m')) (hlist : m'.line.skipBlanks.startsWith [';'] = false) :
    m.continueList (some .continued) bytes =
      m'.continueList (HexList.readLine m'.line.skipBlanks).1
        (bytes ++ (HexList.readLine m'.line.skipBlanks).2) := by
  rw [continueList]
  split <;> simp_all

/-- Read the payload of a list of bytes, and the lines that continue it. -/
def hexStep (m : Importer ρ σ κ) (place : Nat) : Progress × Importer ρ σ κ :=
  let r := HexList.readLine (m.line.fromPlace place)
  m.continueList r.1 r.2

/-- Set the value that has been read, if a key is open. -/
def setStaged (m : Importer ρ σ κ) : Importer ρ σ κ :=
  let data := m.staged.getD []
  let taken := { m with staged := none }
  match m.key with
  | none => taken
  | some key =>
      match RegistryStore.setValue m.store key m.valueName m.dataType data with
      | (.ok (), store) =>
          { taken with
            store := store
            report := { m.report with valuesWritten := m.report.valuesWritten + 1 } }
      | (.error cause, store) => { taken with store := store }.note [.setValueFailed cause]

/-- Set the value and go on in front of the next line. -/
def writingStep (m : Importer ρ σ κ) (place : Nat) : Progress × Importer ρ σ κ :=
  let written := m.setStaged
  if written.dialect = some .windows31 then (.proceed place, written.enter .windows31Line)
  else (.proceed place, written.enter .lineStart)

/-- The step of the current state. -/
def step (m : Importer ρ σ κ) (place : Nat) : Progress × Importer ρ σ κ :=
  match m.state with
  | .header => m.headerStep
  | .windows31Line => m.windows31Step
  | .lineStart => m.lineStartStep
  | .keyName => m.keyNameStep place
  | .defaultName => m.defaultNameStep place
  | .quotedName => m.quotedNameStep place
  | .assignment => m.assignmentStep place
  | .typeTag => m.typeTagStep place
  | .stringPayload => m.stringStep place
  | .dwordPayload => m.dwordStep place
  | .hexPayload => m.hexStep place
  | .writing => m.writingStep place

end Importer

end RegistryText
