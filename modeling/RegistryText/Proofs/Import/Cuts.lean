import RegistryText.Proofs.Import.LaterRuns
import RegistryText.Proofs.Import.Obey
import RegistryText.Proofs.Text.Cuts

/-!
# Cuts of the current line

The steps of an import hand each other a place in the current line, and most of them cut the line
there.  A place is a bare number of bytes.  Between two steps the line may be shortened, another line
may come instead, or none; and a number that is no place of the line cannot be cut at.

`checkedStep` makes every cut of a step explicitly: what stands behind the place that it is given,
the name of a key, the place of what a reader has left, the line without the blanks at its end.  It
answers with nothing if one of these cuts is not possible.  `Placed` says what stands at the place
that a step is given.  **A step that is given its place makes all its cuts, and gives the next one its
place** (`Placed.step`), so no cut ever fails (`cuts_in_place`).
-/

namespace RegistryText

/-- The states in which a step cuts the line at the place that it is given. -/
def ImportState.cuts : ImportState → Bool
  | keyName | quotedName | assignment | typeTag => true
  | stringPayload | dwordPayload | hexPayload => true
  | header | windows31Line | lineStart | defaultName | writing => false

/-- In front of a line, and of a write, nothing is cut at the place that a step is given. -/
theorem ImportState.not_cuts_of_rank {state : ImportState} (h : state.rank = 0 ∨ state = .writing) :
    state.cuts = false ∧ state ≠ .defaultName := by
  cases state <;> revert h <;> decide

/-- Behind an escaped text stands an ending of the line. -/
theorem Text.At.of_read? {t rest : Text} {place : Nat} {u : Escaped.Unescaped}
    (hat : t.At place rest) (hread : Escaped.read? rest = some u) :
    t.At (t.placeOf u.rest) u.rest := by
  obtain ⟨written, hrest, -⟩ := Escaped.read?_eq_some_iff.mp hread
  have hquote : rest = (written ++ ['"']) ++ u.rest := by
    rw [hrest]
    simp
  exact hat.rest hquote

/-- The name of a key stands at the start of what follows its bracket. -/
theorem exists_eq_bracketed {rest name : Text} (h : Importer.bracketed? rest = some name) :
    ∃ behind, rest = name ++ behind := by
  unfold Importer.bracketed? at h
  split at h
  · cases h
  · obtain ⟨behind, hrest, -⟩ := Text.eq_of_beforeLast? h
    exact ⟨']' :: behind, hrest⟩

/-- What is left of the rest of a Windows 3.1 line stands at its end. -/
theorem exists_eq_windows31Value (behind : Text) :
    ∃ front, behind = front ++ Importer.windows31Value behind := by
  have hafter : ∀ (lead t : Text), ∃ front, t = front ++ (Text.after? lead t).getD t := by
    intro lead t
    cases hlead : Text.after? lead t with
    | none => exact ⟨[], rfl⟩
    | some rest => exact ⟨lead, Text.after?_eq_some_iff.mp hlead⟩
  obtain ⟨blanks, -, hblanks⟩ := Text.exists_eq_skipBlanks behind
  obtain ⟨equals, hequals⟩ := hafter ['='] behind.skipBlanks
  obtain ⟨space, hspace⟩ :=
    hafter [' '] ((Text.after? ['='] behind.skipBlanks).getD behind.skipBlanks)
  refine ⟨blanks ++ equals ++ space, ?_⟩
  calc behind
      = blanks ++ behind.skipBlanks := hblanks
    _ = blanks ++ (equals ++ (space ++ Importer.windows31Value behind)) := by
        rw [Importer.windows31Value, ← hspace, ← hequals]
    _ = blanks ++ equals ++ space ++ Importer.windows31Value behind := by
        simp only [List.append_assoc]

namespace Importer

variable {ρ σ κ : Type}

/-- What stands at the place that the next step is given. -/
structure Placed (m : Importer ρ σ κ) (place : Nat) : Prop where
  cuts : m.state.cuts = true → ∃ rest, m.line.At place rest
  sign : m.state = .defaultName → ∃ rest, m.line.At place ('@' :: rest)

/-- A step that takes a line, or sets a value, may be given any place. -/
theorem placed_of_rank {m : Importer ρ σ κ} (h : m.state.rank = 0 ∨ m.state = .writing)
    (place : Nat) : m.Placed place := by
  obtain ⟨hcuts, hsign⟩ := ImportState.not_cuts_of_rank h
  exact ⟨fun h => absurd h (by rw [hcuts]; decide), fun h => absurd h hsign⟩

/-- A step that cuts may be given the place of any ending. -/
theorem placed_of_at {m : Importer ρ σ κ} {place : Nat} {rest : Text} (hat : m.line.At place rest)
    (hsign : m.state ≠ .defaultName) : m.Placed place where
  cuts _ := ⟨rest, hat⟩
  sign h := absurd h hsign

/-- The cuts of a step are possible, so that it comes to `r`, and the next step is given its
place. -/
structure CutsTo (checked : Option (Progress × Importer ρ σ κ)) (r : Progress × Importer ρ σ κ) :
    Prop where
  eq_some : checked = some r
  placed : ∀ {next : Nat} {m : Importer ρ σ κ}, r = (.proceed next, m) → m.Placed next

/-- A step that comes to the front of a line, or of a write, gives the next one any place. -/
theorem cutsTo_rest {checked : Option (Progress × Importer ρ σ κ)} {r : Progress × Importer ρ σ κ}
    (h : checked = some r) (hstate : r.2.state.rank = 0 ∨ r.2.state = .writing) :
    CutsTo checked r where
  eq_some := h
  placed := by
    intro next m heq
    rw [heq] at hstate
    exact placed_of_rank hstate next

/-- A line is looked at from its start, and the place of its first sign is handed on. -/
theorem placed_dispatch {m m' : Importer ρ σ κ} {next : Nat} (hstate : m.state = .lineStart)
    (h : m.dispatch = (.proceed next, m')) : m'.Placed next := by
  have hat := (Text.at_zero m.line).skipBlanks
  simp only [dispatch] at h
  split at h
  next rest hrest =>
    cases h
    rw [hrest] at hat ⊢
    exact placed_of_at (m := m.enter .keyName) (hat.next rfl) (by rintro ⟨⟩)
  next rest hrest =>
    cases h
    rw [hrest] at hat ⊢
    exact ⟨fun _ => ⟨_, hat⟩, fun _ => ⟨rest, hat⟩⟩
  next rest hrest =>
    cases h
    rw [hrest] at hat ⊢
    exact placed_of_at (m := m.enter .quotedName) (hat.next rfl) (by rintro ⟨⟩)
  next =>
    cases h
    exact placed_of_rank (Or.inl (by rw [hstate]; rfl)) _

variable [LineSupply ρ]

/-! ### Steps with their cuts -/

/-- The name of a value is read behind its quote; its closing quote is the place to go on at. -/
def checkedQuotedNameStep (m : Importer ρ σ κ) (place : Nat) :
    Option (Progress × Importer ρ σ κ) := do
  let unnamed := { m with valueName := none }
  let rest ← m.line.dropBytes? place
  match Escaped.read? rest with
  | none => some (.proceed place, unnamed.giveUp .invalidValueName)
  | some name =>
      let next ← m.line.placeOfEnding? name.rest
      some (.proceed next,
        { unnamed.note (name.unknown.map .unknownEscape) with
          valueName := some name.text
          state := .assignment })

/-- The line is shortened behind the data, and then cut at the start of the data. -/
def checkedAssignmentStep (m : Importer ρ σ κ) (place : Nat) :
    Option (Progress × Importer ρ σ κ) := do
  let rest ← m.line.dropBytes? place
  match Text.after? ['='] rest.skipBlanks with
  | none => some (.proceed place, m.giveUp .missingAssignment)
  | some behind =>
      let data := behind.skipBlanks
      let start ← m.line.placeOfEnding? data
      let line ← m.line.shorten? (start + data.trimBlanksRight.byteLength)
      let cut := { m with line := line }
      let kept ← line.dropBytes? start
      if kept.startsWith ['-'] then some (.proceed start, cut.giveUp .valueDeletionUnsupported)
      else some (.proceed start, cut.enter .typeTag)

/-- The payload begins where the tag ends. -/
def checkedTypeTagStep (m : Importer ρ σ κ) (place : Nat) :
    Option (Progress × Importer ρ σ κ) := do
  let rest ← m.line.dropBytes? place
  match TypeTag.read? rest with
  | none => some (.proceed place, m.giveUp .unknownDataType)
  | some (tag, payload) =>
      let next ← m.line.placeOfEnding? payload
      some (.proceed next,
        { m with dataType := tag.declared, state := payloadState tag.payload })

/-- A string ends where its closing quote does. -/
def checkedStringStep (m : Importer ρ σ κ) (place : Nat) :
    Option (Progress × Importer ρ σ κ) := do
  let rest ← m.line.dropBytes? place
  match Escaped.read? rest with
  | none => some (.proceed place, m.abandon .invalidStringData)
  | some s =>
      let noted := m.note (s.unknown.map .unknownEscape)
      let next ← m.line.placeOfEnding? s.rest
      if s.rest.skipBlanks.isEmptyOrComment then
        some (.proceed next, noted.stage (stringData s.text))
      else some (.proceed next, noted.abandon .invalidStringData)

/-- A doubleword is read from its place on. -/
def checkedDwordStep (m : Importer ρ σ κ) (place : Nat) :
    Option (Progress × Importer ρ σ κ) := do
  let rest ← m.line.dropBytes? place
  match Dword.read? rest with
  | none => some (.proceed place, m.abandon .invalidDwordData)
  | some value => some (.proceed place, m.stage (Dword.bytes value))

/-- The first line of a list of bytes is read from its place on, the others from their start. -/
def checkedHexStep (m : Importer ρ σ κ) (place : Nat) :
    Option (Progress × Importer ρ σ κ) := do
  let rest ← m.line.dropBytes? place
  let r := HexList.readLine rest
  some (m.continueList r.1 r.2)

variable [RegistryStore σ κ]

/-- The name of a key ends in front of the last closing bracket. -/
def checkedKeyNameStep (m : Importer ρ σ κ) (place : Nat) :
    Option (Progress × Importer ρ σ κ) := do
  let rest ← m.line.dropBytes? place
  match bracketed? rest with
  | none => some (.proceed place, m.giveUp .malformedKey)
  | some front =>
      let name ← rest.takeBytes? front.byteLength
      match Text.after? ['-'] name with
      | some path => some (.proceed place, m.giveUp (.keyDeletionUnsupported path))
      | none => some (.proceed place, (m.openKey name).2.enter .lineStart)

/-- The key ends in front of the first white space, and the string is cut off where it begins. -/
def checkedWindows31Assignment (m : Importer ρ σ κ) : Option (Progress × Importer ρ σ κ) := do
  let keyEnd := Text.byteLength (m.line.takeWhile fun c => !isWhiteSpace c)
  let behind ← m.line.dropBytes? keyEnd
  let valuePlace ← m.line.placeOfEnding? (windows31Value behind)
  let path ← m.line.takeBytes? keyEnd
  match m.openKey path with
  | (false, m) => some (.proceed keyEnd, m)
  | (true, opened) =>
      let value ← opened.line.dropBytes? valuePlace
      some (.proceed valuePlace,
        { opened with
          valueName := none
          dataType := .string
          staged := some (stringData value)
          state := .writing })

/-- A line of the Windows 3.1 dialect is cut if it begins with the classes root. -/
def checkedWindows31Step (m : Importer ρ σ κ) : Option (Progress × Importer ρ σ κ) :=
  match m.fetch with
  | (.error e, m) => some (.failed e, m)
  | (.ok false, m) => some (.finished, m)
  | (.ok true, m) =>
      if m.line.startsWith classesRootToken then m.checkedWindows31Assignment
      else some (.proceed 0, m)

/-- The step of the current state with all its cuts; nothing if one of them is not possible. -/
def checkedStep (m : Importer ρ σ κ) (place : Nat) : Option (Progress × Importer ρ σ κ) :=
  match m.state with
  | .windows31Line => m.checkedWindows31Step
  | .keyName => m.checkedKeyNameStep place
  | .quotedName => m.checkedQuotedNameStep place
  | .assignment => m.checkedAssignmentStep place
  | .typeTag => m.checkedTypeTagStep place
  | .stringPayload => m.checkedStringStep place
  | .dwordPayload => m.checkedDwordStep place
  | .hexPayload => m.checkedHexStep place
  | .header | .lineStart | .defaultName | .writing => some (m.step place)

/-! ### The cuts are possible -/

variable {m : Importer ρ σ κ} {place : Nat} {rest : Text}

omit [RegistryStore σ κ] in
/-- The name of a value begins and ends between characters. -/
theorem cutsTo_quotedNameStep (hat : m.line.At place rest) :
    CutsTo (m.checkedQuotedNameStep place) (m.quotedNameStep place) := by
  unfold checkedQuotedNameStep quotedNameStep
  rw [hat.fromPlace, hat.dropBytes?_eq]
  simp only [Option.bind_eq_bind, Option.bind_some]
  cases hread : Escaped.read? rest with
  | none => exact cutsTo_rest rfl (Or.inl rfl)
  | some name =>
      have hbehind := hat.of_read? hread
      simp only [hbehind.placeOfEnding?_eq, Option.bind_some]
      refine ⟨rfl, ?_⟩
      intro next m' heq
      cases heq
      exact placed_of_at hbehind (by rintro ⟨⟩)

omit [RegistryStore σ κ] in
/-- What is cut off behind an assignment is blanks, so the cut is one between characters. -/
theorem cutsTo_assignmentStep (hat : m.line.At place rest) :
    CutsTo (m.checkedAssignmentStep place) (m.assignmentStep place) := by
  unfold checkedAssignmentStep assignmentStep
  rw [hat.fromPlace, hat.dropBytes?_eq]
  simp only [Option.bind_eq_bind, Option.bind_some]
  cases hequals : Text.after? ['='] rest.skipBlanks with
  | none => exact cutsTo_rest rfl (Or.inl rfl)
  | some behind =>
      have hdata : m.line.At (m.line.placeOf behind.skipBlanks) behind.skipBlanks :=
        (hat.skipBlanks.rest (Text.after?_eq_some_iff.mp hequals)).skipBlanks
      have hcut := hdata.cut
      simp only [hdata.placeOfEnding?_eq, hdata.shorten?_eq, hcut.dropBytes?_eq, hcut.fromPlace,
        Option.bind_some]
      by_cases hminus : behind.skipBlanks.trimBlanksRight.startsWith ['-'] = true
      · simp only [hminus, if_true]
        exact cutsTo_rest rfl (Or.inl rfl)
      · simp only [hminus]
        refine ⟨rfl, ?_⟩
        intro next m' heq
        cases heq
        exact placed_of_at hcut (by rintro ⟨⟩)

omit [RegistryStore σ κ] in
/-- The payload begins behind the last character of its type tag. -/
theorem cutsTo_typeTagStep (hat : m.line.At place rest) :
    CutsTo (m.checkedTypeTagStep place) (m.typeTagStep place) := by
  unfold checkedTypeTagStep typeTagStep
  rw [hat.fromPlace, hat.dropBytes?_eq]
  simp only [Option.bind_eq_bind, Option.bind_some]
  cases hread : TypeTag.read? rest with
  | none => exact cutsTo_rest rfl (Or.inl rfl)
  | some read =>
      obtain ⟨tag, payload⟩ := read
      obtain ⟨front, hdata⟩ := exists_eq_payload hread
      have hbehind := hat.rest hdata
      simp only [hbehind.placeOfEnding?_eq, Option.bind_some]
      refine ⟨rfl, ?_⟩
      intro next m' heq
      cases heq
      have hsign : payloadState tag.payload ≠ .defaultName := by
        cases tag.payload <;> rintro ⟨⟩
      exact placed_of_at hbehind hsign

omit [RegistryStore σ κ] in
/-- A string is read from its place to the end of the line. -/
theorem cutsTo_stringStep (hat : m.line.At place rest) :
    CutsTo (m.checkedStringStep place) (m.stringStep place) := by
  unfold checkedStringStep stringStep
  rw [hat.fromPlace, hat.dropBytes?_eq]
  simp only [Option.bind_eq_bind, Option.bind_some]
  cases hread : Escaped.read? rest with
  | none => exact cutsTo_rest rfl (Or.inl rfl)
  | some s =>
      simp only [(hat.of_read? hread).placeOfEnding?_eq, Option.bind_some]
      by_cases hend : s.rest.skipBlanks.isEmptyOrComment = true
      · simp only [hend, if_true]
        exact cutsTo_rest rfl (Or.inr rfl)
      · simp only [hend]
        exact cutsTo_rest rfl (Or.inl rfl)

omit [RegistryStore σ κ] in
/-- So is a number. -/
theorem cutsTo_dwordStep (hat : m.line.At place rest) :
    CutsTo (m.checkedDwordStep place) (m.dwordStep place) := by
  unfold checkedDwordStep dwordStep
  rw [hat.fromPlace, hat.dropBytes?_eq]
  simp only [Option.bind_eq_bind, Option.bind_some]
  cases Dword.read? rest with
  | none => exact cutsTo_rest rfl (Or.inl rfl)
  | some value => exact cutsTo_rest rfl (Or.inr rfl)

omit [RegistryStore σ κ] in
/-- A list of bytes ends in front of a line or of a write, unless the lines do. -/
theorem rank_continueList {m' : Importer ρ σ κ} {ending : Option HexList.Ending} {bytes : Bytes}
    {next : Nat} (h : m.continueList ending bytes = (.proceed next, m')) :
    m'.state.rank = 0 ∨ m'.state = .writing := by
  fun_induction continueList m ending bytes with
  | case1 m bytes => cases h; exact Or.inl rfl
  | case2 m bytes => cases h; exact Or.inr rfl
  | case3 m bytes e m' hfetch => cases h
  | case4 m bytes m' hfetch => cases h
  | case5 m bytes m' hfetch hless rest hcomment ih => exact ih h
  | case6 m bytes m' hfetch hless rest hlist r ih => exact ih h

omit [RegistryStore σ κ] in
/-- So is the first line of a list. -/
theorem cutsTo_hexStep (hat : m.line.At place rest) :
    CutsTo (m.checkedHexStep place) (m.hexStep place) := by
  unfold checkedHexStep hexStep
  rw [hat.fromPlace, hat.dropBytes?_eq]
  refine ⟨rfl, ?_⟩
  intro next m' heq
  exact placed_of_rank (rank_continueList heq) next

/-- The path of a key ends in front of its bracket. -/
theorem cutsTo_keyNameStep (hat : m.line.At place rest) :
    CutsTo (m.checkedKeyNameStep place) (m.keyNameStep place) := by
  unfold checkedKeyNameStep keyNameStep
  rw [hat.fromPlace, hat.dropBytes?_eq]
  simp only [Option.bind_eq_bind, Option.bind_some]
  cases hname : bracketed? rest with
  | none => exact cutsTo_rest rfl (Or.inl rfl)
  | some name =>
      have hcut : rest.takeBytes? name.byteLength = some name := by
        obtain ⟨behind, hrest⟩ := exists_eq_bracketed hname
        rw [hrest]
        exact Text.takeBytes?_append name _
      simp only [hcut, Option.bind_some]
      cases Text.after? ['-'] name with
      | some path => exact cutsTo_rest rfl (Or.inl rfl)
      | none => exact cutsTo_rest rfl (Or.inl rfl)

/-- Whatever becomes of a key, the line is the same. -/
theorem line_openKey (m : Importer ρ σ κ) (path : Text) : (m.openKey path).2.line = m.line := by
  have hclosed : m.closeKey.line = m.line := by
    unfold closeKey
    split <;> rfl
  simp only [openKey]
  split <;> exact hclosed

/-- The key of a line of the Windows 3.1 dialect ends in front of white space. -/
theorem cutsTo_windows31Assignment (hstate : m.state = .windows31Line) :
    CutsTo m.checkedWindows31Assignment m.windows31Assignment := by
  have hsplit := List.takeWhile_append_dropWhile (p := fun c => !isWhiteSpace c) (l := m.line)
  unfold checkedWindows31Assignment windows31Assignment
  generalize m.line.takeWhile (fun c => !isWhiteSpace c) = path at hsplit ⊢
  generalize m.line.dropWhile (fun c => !isWhiteSpace c) = behind at hsplit ⊢
  have hat : m.line.At (Text.byteLength path) behind := ⟨path, hsplit.symm, rfl⟩
  have htake : m.line.takeBytes? (Text.byteLength path) = some path := by
    rw [← hsplit]
    exact Text.takeBytes?_append path behind
  obtain ⟨front, hvalue⟩ := exists_eq_windows31Value behind
  have hvalueAt := hat.rest hvalue
  simp only [hat.dropBytes?_eq, hvalueAt.placeOfEnding?_eq, htake, Option.bind_eq_bind,
    Option.bind_some]
  have hline := m.line_openKey path
  rcases hopen : m.openKey path with ⟨_ | _, opened⟩
  · have hkept : opened.state = .windows31Line := by
      rw [← hstate, ← state_openKey m path, hopen]
    exact cutsTo_rest rfl (Or.inl (congrArg ImportState.rank hkept))
  · rw [hopen] at hline
    dsimp only at hline ⊢
    rw [hline, hvalueAt.dropBytes?_eq]
    exact cutsTo_rest rfl (Or.inr rfl)

/-- So its line is cut in place, if it is one at all. -/
theorem cutsTo_windows31Step (hstate : m.state = .windows31Line) :
    CutsTo m.checkedWindows31Step m.windows31Step := by
  unfold checkedWindows31Step windows31Step
  rcases hfetch : m.fetch with ⟨e | taken, m'⟩
  · exact ⟨rfl, by rintro _ _ ⟨⟩⟩
  · have hkept : m'.state = .windows31Line := (kept_of_fetch hfetch).1.trans hstate
    cases taken with
    | false => exact cutsTo_rest rfl (Or.inl (congrArg ImportState.rank hkept))
    | true =>
        dsimp only
        split
        · exact cutsTo_windows31Assignment hkept
        · exact cutsTo_rest rfl (Or.inl (congrArg ImportState.rank hkept))

omit [RegistryStore σ κ] in
/-- Behind the header no line has been looked at yet. -/
theorem placed_headerStep {m' : Importer ρ σ κ} {next : Nat}
    (h : m.headerStep = (.proceed next, m')) : m'.Placed next := by
  have hclassify : ∀ {n : Importer ρ σ κ}, n.classify = (.proceed next, m') → m'.Placed next := by
    intro n hn
    exact placed_of_rank (Or.inl (by rw [between_classify hn, rank_front])) next
  unfold headerStep at h
  split at h
  · cases h
  · exact hclassify h
  · exact hclassify h

omit [RegistryStore σ κ] in
/-- The start of a line is followed by its first character. -/
theorem placed_lineStartStep (hstate : m.state = .lineStart) {m' : Importer ρ σ κ} {next : Nat}
    (h : m.lineStartStep = (.proceed next, m')) : m'.Placed next := by
  unfold lineStartStep at h
  split at h
  · cases h
  · cases h
  next m'' hfetch => exact placed_dispatch ((kept_of_fetch hfetch).1.trans hstate) h

/-- A write is the last step of its line. -/
theorem rank_writingStep (m : Importer ρ σ κ) (place : Nat) :
    (m.writingStep place).2.state.rank = 0 := by
  simp only [writingStep]
  split <;> rfl

/-- **A step that is given its place makes all its cuts, and gives the next one its place.** -/
theorem Placed.step (h : m.Placed place) : CutsTo (m.checkedStep place) (m.step place) := by
  cases hstate : m.state <;> simp only [checkedStep, Importer.step, hstate]
  case header => exact ⟨rfl, placed_headerStep⟩
  case windows31Line => exact cutsTo_windows31Step hstate
  case lineStart => exact ⟨rfl, placed_lineStartStep hstate⟩
  case defaultName =>
    obtain ⟨rest, hat⟩ := h.sign hstate
    refine ⟨rfl, ?_⟩
    intro next m' heq
    cases heq
    exact placed_of_at (hat.next rfl) (by rintro ⟨⟩)
  case writing => exact cutsTo_rest rfl (Or.inl (m.rank_writingStep place))
  all_goals obtain ⟨rest, hat⟩ := h.cuts (by rw [hstate]; rfl)
  case keyName => exact cutsTo_keyNameStep hat
  case quotedName => exact cutsTo_quotedNameStep hat
  case assignment => exact cutsTo_assignmentStep hat
  case typeTag => exact cutsTo_typeTagStep hat
  case stringPayload => exact cutsTo_stringStep hat
  case dwordPayload => exact cutsTo_dwordStep hat
  case hexPayload => exact cutsTo_hexStep hat

/-! ### Many runs -/

/-- Between two runs the line is empty, and the next run begins at its start. -/
theorem placed_finish (hrest : m.state.isRest = true) : m.finish.Placed 0 where
  cuts _ := ⟨[], Text.at_zero []⟩
  sign h := by
    rw [(finish_kept m).1] at h
    rw [h] at hrest
    cases hrest

/-- A move to a moment in a run, or behind it, keeps to the places of the line. -/
theorem placed_moves {s s' : Importer ρ σ κ × Option Nat} (h : s.1.Placed (s.2.getD 0))
    (hmove : Moves s s') : s'.1.Placed (s'.2.getD 0) := by
  cases hmove with
  | begins m => exact h
  | goesOn step => exact h.step.placed step
  | @ends m m' place step =>
      have hrest := m.isRest_step place
      rw [step] at hrest
      exact placed_finish (by simpa using hrest)
  | @fails m m' place e step =>
      have hrest := m.isRest_step place
      rw [step] at hrest
      exact placed_finish (by simpa using hrest)

/-- **At every moment of any number of runs the next step is given its place.** -/
theorem placed_of_moves {s s' : Importer ρ σ κ × Option Nat} (h : s.1.Placed (s.2.getD 0))
    (hmoves : Relation.ReflTransGen Moves s s') : s'.1.Placed (s'.2.getD 0) := by
  induction hmoves with
  | refl => exact h
  | tail before move ih => exact placed_moves ih move

end Importer

/-- **No cut of the current line fails**, in any number of runs on any source and any store.  At
every moment at which the next step cuts the line where it is told to, that place is a number of
bytes of the line behind which a character begins or the line ends; and the step makes all its cuts:
the texts of which it takes the place are endings of the line, the line is shortened at a place of it
and not in front of the data, and the parts of a Windows 3.1 line are cut off at their places. -/
theorem cuts_in_place {σ κ : Type} [RegistryStore σ κ] {source : Source} {store : σ}
    {options : ImportOptions} {m₀ m : Importer LineReader σ κ} {place : Nat}
    (hm₀ : Importer.ofSource source store options = .ok m₀)
    (hmoves : Relation.ReflTransGen Importer.Moves (m₀, none) (m, some place)) :
    (m.state.cuts = true → place ≤ m.line.byteLength ∧
      ∃ front rest, m.line = front ++ rest ∧ place = front.byteLength) ∧
    m.checkedStep place = some (m.step place) := by
  obtain ⟨first, second, rest, rfl⟩ := Importer.exists_ofFirstBytes hm₀
  have hplaced : m.Placed place :=
    Importer.placed_of_moves (Importer.placed_of_rank (Or.inl rfl) 0) hmoves
  refine ⟨?_, hplaced.step.eq_some⟩
  intro hcuts
  obtain ⟨rest, hat⟩ := hplaced.cuts hcuts
  obtain ⟨front, hline, hplace⟩ := hat
  exact ⟨Text.At.le_byteLength ⟨front, hline, hplace⟩, front, rest, hline, hplace⟩

/-- A value line with characters of two bytes, and blanks at its end. -/
def accentedText : Text :=
  "REGEDIT4\n \"é\" = \"ü\"  \n".toList

/-- A new importer of this line. -/
def importerOfAccented : Importer LineReader MemoryStore KeyHandle :=
  Importer.ofFirstBytes 0x52 0x45 (.ofBytes ((Utf8.encode accentedText).drop 2)) {}
    { page := .utf8 }

/-- In front of the type tag the line has lost its blanks, and the data begins behind 8 of its 12
bytes.  A second run that begins within a list of bytes is given the start of an empty line. -/
theorem cuts_in_place_accented :
    (∃ m : Importer LineReader MemoryStore KeyHandle,
      Relation.ReflTransGen Importer.Moves (importerOfAccented, none) (m, some 8) ∧
        m.state = .typeTag ∧ m.line.byteLength = 12 ∧ 8 ≤ m.line.byteLength ∧
        m.checkedStep 8 = some (m.step 8)) ∧
      (importerOfCutOff.runs 1).state = .hexPayload ∧
      (importerOfCutOff.runs 1).checkedStep 0 = some ((importerOfCutOff.runs 1).step 0) := by
  have hgoesOn : ∀ (m : Importer LineReader MemoryStore KeyHandle) (place next : Nat),
      (m.step place).1 = .proceed next →
        Importer.Moves (m, some place) ((m.step place).2, some next) :=
    fun m place next h => .goesOn (Prod.ext h rfl)
  have haccented : Importer.ofSource (.ofBytes (Utf8.encode accentedText)) {} { page := .utf8 } =
      .ok importerOfAccented := rfl
  have hcutOff : Importer.ofSource
      ⟨[.data (Utf8.encode cutOffText), .failure "broken".toList], none⟩ cautiousStore {} =
        .ok importerOfCutOff := rfl
  refine ⟨?_, by decide +kernel, ?_⟩
  · have hheader := hgoesOn importerOfAccented 0 0 (by decide +kernel)
    have hsign := hgoesOn (importerOfAccented.step 0).2 0 2 (by decide +kernel)
    have hname := hgoesOn ((importerOfAccented.step 0).2.step 0).2 2 5 (by decide +kernel)
    have hequals := hgoesOn (((importerOfAccented.step 0).2.step 0).2.step 2).2 5 8
      (by decide +kernel)
    have hmoves := (((Relation.ReflTransGen.single (.begins importerOfAccented)).tail
      hheader).tail hsign).tail hname |>.tail hequals
    obtain ⟨hplace, hchecked⟩ := cuts_in_place haccented hmoves
    exact ⟨_, hmoves, by decide +kernel, by decide +kernel, (hplace (by decide +kernel)).1,
      hchecked⟩
  · exact (cuts_in_place hcutOff
      ((importerOfCutOff.reflTransGen_moves_runs 1).tail (.begins _))).2

end RegistryText
