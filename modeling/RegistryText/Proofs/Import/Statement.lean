import RegistryText.Proofs.Import.Quiet
import RegistryText.Proofs.Import.Turn
import RegistryText.Proofs.Store.Calls
import RegistryText.Proofs.Text.Places

/-!
# What a line states

A step of an import goes on at a place in a line and leaves much behind for the
next one: a name, a type, a line that it has cut off.  Here a line is read at
once instead.  `Reading.ofLine` says what a line of a structured file states: a
key to be opened, a value to be set, a list of bytes that goes on in the next
line, a problem, or nothing; and `obey` does what is stated.

**A turn obeys its line** (`turn_of_line`): up to what is left of the last line,
which no later turn looks at, the steps of a turn and the reading of its line come
to the same.  From here on a run may be reasoned about line by line.
-/

namespace RegistryText

/-! ### Readings -/

/-- What a line states. -/
inductive Statement where
  /-- Nothing; the line is passed over. -/
  | nothing
  /-- A key. -/
  | key (path : Text)
  /-- A key and its default value, on one line. -/
  | entry (path : Text) (write : KeyWrite)
  /-- A value of the open key. -/
  | value (write : KeyWrite)
  /-- The beginning of a list of bytes that goes on in the next line. -/
  | list (name : Option Text) (type : ValueType) (bytes : Bytes)
  /-- Nothing that can be carried out. -/
  | fault (kind : DiagnosticKind)
  deriving DecidableEq, Repr

/-- What a line states, and the unknown escapes that have to be read for it. -/
structure Reading where
  unknown : List Char := []
  statement : Statement
  deriving DecidableEq, Repr

namespace Reading

/-- A reading behind further unknown escapes. -/
def behind (unknown : List Char) (r : Reading) : Reading :=
  { r with unknown := unknown ++ r.unknown }

/-- The string of a value, with only blanks and a comment behind it. -/
def ofString (name : Option Text) (type : ValueType) (payload : Text) : Reading :=
  match Escaped.read? payload with
  | none => { statement := .fault .invalidStringData }
  | some s =>
      { unknown := s.unknown
        statement :=
          if s.rest.skipBlanks.isEmptyOrComment then .value ⟨name, type, stringData s.text⟩
          else .fault .invalidStringData }

/-- The doubleword of a value. -/
def ofDword (name : Option Text) (type : ValueType) (payload : Text) : Reading :=
  match Dword.read? payload with
  | none => { statement := .fault .invalidDwordData }
  | some value => { statement := .value ⟨name, type, Dword.bytes value⟩ }

/-- The first line of a list of bytes. -/
def ofList (name : Option Text) (type : ValueType) (payload : Text) : Reading :=
  match HexList.readLine payload with
  | (none, _) => { statement := .fault .invalidHexData }
  | (some .complete, bytes) => { statement := .value ⟨name, type, bytes⟩ }
  | (some .continued, bytes) => { statement := .list name type bytes }

/-- The payload behind a type tag. -/
def ofPayload (name : Option Text) (tag : TypeTag) (payload : Text) : Reading :=
  match tag.payload with
  | .escapedText => ofString name tag.declared payload
  | .dword => ofDword name tag.declared payload
  | .hexList => ofList name tag.declared payload

/-- The data of a value, without blanks around it. -/
def ofData (name : Option Text) (data : Text) : Reading :=
  if data.startsWith ['-'] then { statement := .fault .valueDeletionUnsupported }
  else
    match TypeTag.read? data with
    | none => { statement := .fault .unknownDataType }
    | some (tag, payload) => ofPayload name tag payload

/-- What follows the name of a value. -/
def ofAssignment (name : Option Text) (rest : Text) : Reading :=
  match Text.after? ['='] rest.skipBlanks with
  | none => { statement := .fault .missingAssignment }
  | some data => ofData name data.skipBlanks.trimBlanksRight

/-- What follows the opening quote of a name. -/
def ofQuoted (rest : Text) : Reading :=
  match Escaped.read? rest with
  | none => { statement := .fault .invalidValueName }
  | some name => (ofAssignment (some name.text) name.rest).behind name.unknown

/-- What follows an opening bracket. -/
def ofBracket (rest : Text) : Reading :=
  match Importer.bracketed? rest with
  | none => { statement := .fault .malformedKey }
  | some name =>
      match Text.after? ['-'] name with
      | some path => { statement := .fault (.keyDeletionUnsupported path) }
      | none => { statement := .key name }

/-- A line of a structured file. -/
def ofLine (line : Text) : Reading :=
  match line.skipBlanks with
  | '[' :: rest => ofBracket rest
  | '@' :: rest => ofAssignment none rest
  | '"' :: rest => ofQuoted rest
  | _ => { statement := .nothing }

/-- A line of the Windows 3.1 dialect. -/
def ofWindows31 (line : Text) : Reading :=
  if line.startsWith Importer.classesRootToken then
    { statement := .entry (line.takeWhile fun c => !isWhiteSpace c)
        ⟨none, .string,
          stringData (Importer.windows31Value (line.dropWhile fun c => !isWhiteSpace c))⟩ }
  else { statement := .nothing }

/-- A line of the body of a file. -/
def ofBody : ImportState → Text → Reading
  | .windows31Line, line => ofWindows31 line
  | _, line => ofLine line

end Reading

/-! ### Lists over several lines -/

/-- How the lines that continue a list of bytes end. -/
inductive ListEnd where
  /-- With the last byte of the list. -/
  | complete (bytes : Bytes)
  /-- With a line that continues no list. -/
  | malformed
  /-- With the end of all lines. -/
  | missing
  /-- With a failing read. -/
  | failed (e : ImportError)

namespace Importer

variable {ρ σ κ : Type}

section Gather

variable [LineSupply ρ]

/-- Take the lines that continue a list of bytes. -/
def gather (m : Importer ρ σ κ) (bytes : Bytes) : ListEnd × Importer ρ σ κ :=
  match h : m.fetch with
  | (.error e, m') => (.failed e, m')
  | (.ok false, m') => (.missing, m')
  | (.ok true, m') =>
      have : LineSupply.size m'.lines < LineSupply.size m.lines := (size_fetch h).1
      if m'.line.skipBlanks.startsWith [';'] then m'.gather bytes
      else
        match HexList.readLine m'.line.skipBlanks with
        | (none, _) => (.malformed, m')
        | (some .complete, more) => (.complete (bytes ++ more), m')
        | (some .continued, more) => m'.gather (bytes ++ more)
termination_by LineSupply.size m.lines

/-- What a step does at the end of a list. -/
def closeList : ListEnd × Importer ρ σ κ → Progress × Importer ρ σ κ
  | (.complete bytes, m) => (.proceed m.line.byteLength, m.stage bytes)
  | (.malformed, m) => (.proceed 0, m.abandon .invalidHexData)
  | (.missing, m) => (.finished, m.abandon .invalidHexData)
  | (.failed e, m) => (.failed e, m)

/-- A continued list is finished by the lines that continue it. -/
theorem continueList_continued (m : Importer ρ σ κ) (bytes : Bytes) :
    m.continueList (some .continued) bytes = closeList (m.gather bytes) := by
  fun_induction gather m bytes with
  | case1 m bytes e m' hfetch => rw [continueList]; split <;> simp_all [closeList]
  | case2 m bytes m' hfetch => rw [continueList]; split <;> simp_all [closeList]
  | case3 m bytes m' hfetch hless hcomment ih => rw [continueList_of_comment hfetch hcomment, ih]
  | case4 m bytes m' hfetch hless hlist more hread =>
      rw [continueList_of_line hfetch (by simpa using hlist), hread, continueList]
      rfl
  | case5 m bytes m' hfetch hless hlist more hread =>
      rw [continueList_of_line hfetch (by simpa using hlist), hread, continueList]
      rfl
  | case6 m bytes m' hfetch hless hlist more hread ih =>
      rw [continueList_of_line hfetch (by simpa using hlist), hread, ih]

/-- Notes are kept in order. -/
theorem note_note (m : Importer ρ σ κ) (kinds more : List DiagnosticKind) :
    (m.note kinds).note more = m.note (kinds ++ more) := by
  simp [note]

end Gather

/-! ### Carrying out a statement -/

variable [LineSupply ρ] [RegistryStore σ κ]

/-- Set a value of the open key, if there is one; a refusal is noted. -/
def write (m : Importer ρ σ κ) (w : KeyWrite) : Importer ρ σ κ :=
  match m.key with
  | none => m
  | some key =>
      match RegistryStore.setValue m.store key w.name w.type w.data with
      | (.ok (), store) =>
          { m with
            store := store
            report := { m.report with valuesWritten := m.report.valuesWritten + 1 } }
      | (.error cause, store) => { m with store := store }.note [.setValueFailed cause]

/-- Do what is stated.  A failing read leaves the importer within its list. -/
def carryOut (m : Importer ρ σ κ) : Statement → Progress × Importer ρ σ κ
  | .nothing => (.proceed 0, m)
  | .key path => (.proceed 0, (m.openKey path).2)
  | .entry path w => (.proceed 0, (m.openKey path).2.write w)
  | .value w => (.proceed 0, m.write w)
  | .fault kind => (.proceed 0, m.note [kind])
  | .list name type bytes =>
      match m.gather bytes with
      | (.complete bytes, m') => (.proceed 0, m'.write ⟨name, type, bytes⟩)
      | (.malformed, m') => (.proceed 0, m'.note [.invalidHexData])
      | (.missing, m') => (.finished, m'.note [.invalidHexData])
      | (.failed e, m') => (.failed e, m'.enter .hexPayload)

/-- Note the unknown escapes of a line and do what it states. -/
def obey (m : Importer ρ σ κ) (r : Reading) : Progress × Importer ρ σ κ :=
  (m.note (r.unknown.map .unknownEscape)).carryOut r.statement

/-- Unknown escapes may be noted first. -/
theorem obey_behind (m : Importer ρ σ κ) (unknown : List Char) (r : Reading) :
    m.obey (r.behind unknown) = (m.note (unknown.map .unknownEscape)).obey r := by
  simp only [obey, Reading.behind, note_note, List.map_append]

end Importer

end RegistryText
