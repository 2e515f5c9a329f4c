import RegistryText.Proofs.Import.Settled
import RegistryText.Proofs.Payload.Grammar

/-!
# Turns obey their lines

**Settled, a turn in front of a line of the body comes to what the reading of the
line states** (`turn_of_line`).

The proof follows the steps from the last one back to the first.  For each state
it says what the rest of the turn does with what stands at its place, in terms of
the reading of just that part.
-/

namespace RegistryText.Importer

variable {ρ σ κ : Type}

/-! ### The steps of a turn, from the last to the first -/

section Turns

variable [LineSupply ρ] [RegistryStore σ κ] {m : Importer ρ σ κ} {place : Nat}

/-- The turn ends in front of the next line. -/
theorem settled_turn_of_step {m' : Importer ρ σ κ} {next : Nat}
    (h : m.step place = (.proceed next, m')) (hstate : m'.state.rank = 0) :
    settled (m.turn place) = (.proceed 0, m'.anew m'.state) := by
  rw [turn_of_last h hstate]
  rfl

/-- A value that is complete is written. -/
theorem turn_writing (hstate : m.state = .writing) {data : Bytes}
    (hstaged : m.staged = some data) :
    settled (m.turn place) =
      (.proceed 0, (m.anew m.front).write ⟨m.valueName, m.dataType, data⟩) := by
  have hstep : m.step place = (.proceed place, m.setStaged.enter m.front) := by
    rw [step, hstate]
    simp only [writingStep, front, dialect_setStaged]
    split <;> rfl
  have hanew : (m.setStaged.enter m.front).anew m.front =
      (m.anew m.front).write ⟨m.valueName, m.dataType, data⟩ := by
    show m.setStaged.anew m.front = _
    rw [setStaged_eq, anew_write, hstaged]
    rfl
  rw [settled_turn_of_step hstep (rank_front m)]
  exact congrArg (Prod.mk _) hanew

/-- A value that is read on its line is written, if a key is open. -/
theorem settled_value (m : Importer ρ σ κ) (state : ImportState) (w : KeyWrite) :
    settled ((m.anew state).obey { statement := .value w }) =
      (.proceed 0, (m.anew state).write w) := by
  have hwrite : ((m.anew state).write w).anew ((m.anew state).write w).state =
      (m.anew state).write w := by
    rw [state_write, anew_write]
    rfl
  rw [obey, List.map_nil, note_nil]
  exact congrArg (Prod.mk _) hwrite

/-- A key that is read is opened. -/
theorem settled_key (m : Importer ρ σ κ) (state : ImportState) (path : Text) :
    settled ((m.anew state).obey { statement := .key path }) =
      (.proceed 0, ((m.anew state).openKey path).2) := by
  have hopen : ((m.anew state).openKey path).2.anew ((m.anew state).openKey path).2.state =
      ((m.anew state).openKey path).2 := by
    rw [state_openKey, anew_openKey]
    rfl
  rw [obey, List.map_nil, note_nil]
  exact congrArg (Prod.mk _) hopen

/-- An entry opens its key and is written to it. -/
theorem settled_entry (m : Importer ρ σ κ) (state : ImportState) (path : Text) (w : KeyWrite) :
    settled ((m.anew state).obey { statement := .entry path w }) =
      (.proceed 0, ((m.openKey path).2.anew state).write w) := by
  have hwrite : (((m.anew state).openKey path).2.write w).anew
      (((m.anew state).openKey path).2.write w).state =
        ((m.openKey path).2.anew state).write w := by
    rw [state_write, anew_write, state_openKey, anew_openKey]
    exact congrArg (fun opened => Importer.write opened w) (anew_openKey m state path).symm
  rw [obey, List.map_nil, note_nil]
  exact congrArg (Prod.mk _) hwrite

/-- A fault is noted at its line. -/
theorem settled_fault (m : Importer ρ σ κ) (state : ImportState) (kind : DiagnosticKind) :
    settled ((m.anew state).obey { statement := .fault kind }) =
      (.proceed 0, (m.anew state).note [kind]) := by
  rw [obey, List.map_nil, note_nil]
  rfl

/-- What is staged is written next. -/
theorem turn_staged {next : Nat} {m' : Importer ρ σ κ} {data : Bytes}
    (hstep : m.step place = (.proceed next, m'.stage data)) :
    settled (m.turn place) = settled ((m'.anew m'.front).obey
      { statement := .value ⟨m'.valueName, m'.dataType, data⟩ }) := by
  rw [turn_of_proceed hstep (by simp [stage, ImportState.rank]), settled_value]
  exact turn_writing rfl rfl

/-- A line of a structured file is given up because of a problem. -/
theorem turn_given_up {next : Nat} {m' : Importer ρ σ κ} {kind : DiagnosticKind}
    (hstep : m.step place = (.proceed next, m'.giveUp kind)) :
    settled (m.turn place) =
      settled ((m'.anew .lineStart).obey { statement := .fault kind }) := by
  rw [settled_turn_of_step hstep rfl, settled_fault]
  rfl

/-- A payload is given up because of a problem. -/
theorem turn_abandoned {next : Nat} {m' : Importer ρ σ κ} {kind : DiagnosticKind}
    (hstep : m.step place = (.proceed next, m'.abandon kind)) :
    settled (m.turn place) =
      settled ((m'.anew .lineStart).obey { statement := .fault kind }) := by
  have hgivenUp : m.step place =
      (.proceed next, Importer.giveUp { m' with staged := none } kind) := hstep
  rw [turn_given_up hgivenUp]
  rfl

/-- What the lines that continue a list come to. -/
theorem settled_list (m : Importer ρ σ κ) (state : ImportState) (name : Option Text)
    (type : ValueType) (bytes : Bytes) :
    settled ((m.anew state).carryOut (.list name type bytes)) =
      match m.gather bytes with
      | (.complete bytes, m') => (.proceed 0, (m'.anew state).write ⟨name, type, bytes⟩)
      | (.malformed, m') => (.proceed 0, (m'.anew state).note [.invalidHexData])
      | (.missing, m') => (.finished, (m'.anew state).note [.invalidHexData])
      | (.failed e, m') => (.failed e, m'.anew .hexPayload) := by
  obtain ⟨hend, hsame⟩ := takesAlike_anew.gather (m := m) (n := m.anew state) rfl bytes trivial
  have hstate := ((m.anew state).kept_of_gather bytes).1
  simp only [carryOut]
  revert hend hsame hstate
  rcases m.gather bytes with ⟨ending, m'⟩
  rcases (m.anew state).gather bytes with ⟨ending', n'⟩
  intro hend hsame hstate
  obtain rfl : ending' = ending := hend
  have hanew : ∀ s, n'.anew s = m'.anew s := fun s => congrArg (fun n => n.anew s) hsame
  have hfront : n'.state = state := hstate
  cases ending' with
  | complete bytes =>
      refine congrArg (Prod.mk _) ?_
      rw [state_write, anew_write, hfront, hanew]
  | malformed | missing =>
      refine congrArg (Prod.mk _) ?_
      show (n'.anew n'.state).note _ = _
      rw [hfront, hanew]
  | failed e => exact congrArg (Prod.mk _) (hanew .hexPayload)

/-- The rest of a line that is the string of a value. -/
theorem turn_string (hstate : m.state = .stringPayload) (hfront : m.front = .lineStart)
    {payload : Text} (hat : m.line.At place payload) :
    settled (m.turn place) =
      settled ((m.anew .lineStart).obey (.ofString m.valueName m.dataType payload)) := by
  have hstep : m.step place = m.stringStep place := by rw [step, hstate]
  rw [stringStep, hat.fromPlace] at hstep
  cases hread : Escaped.read? payload with
  | none =>
      simp only [hread] at hstep
      rw [turn_abandoned hstep, Reading.ofString, hread]
  | some s =>
      have hbehind : Reading.ofString m.valueName m.dataType payload =
          Reading.behind s.unknown {
            statement :=
              if s.rest.skipBlanks.isEmptyOrComment then
                .value ⟨m.valueName, m.dataType, stringData s.text⟩
              else .fault .invalidStringData } := by
        rw [Reading.ofString, hread, Reading.behind, List.append_nil]
      rw [hbehind, obey_behind]
      by_cases hend : s.rest.skipBlanks.isEmptyOrComment
      · simp only [hread, hend, if_true] at hstep
        rw [turn_staged hstep, if_pos hend, ← hfront]
        rfl
      · simp only [hread, hend] at hstep
        rw [turn_abandoned hstep, if_neg hend]
        rfl

/-- The rest of a line that is the doubleword of a value. -/
theorem turn_dword (hstate : m.state = .dwordPayload) (hfront : m.front = .lineStart)
    {payload : Text} (hat : m.line.At place payload) :
    settled (m.turn place) =
      settled ((m.anew .lineStart).obey (.ofDword m.valueName m.dataType payload)) := by
  have hstep : m.step place = m.dwordStep place := by rw [step, hstate]
  rw [dwordStep, hat.fromPlace] at hstep
  cases hread : Dword.read? payload with
  | none =>
      simp only [hread] at hstep
      rw [turn_abandoned hstep, Reading.ofDword, hread]
  | some value =>
      simp only [hread] at hstep
      rw [turn_staged hstep, Reading.ofDword, hread, hfront]

/-- The rest of a line that begins a list of bytes, and the lines that continue
it. -/
theorem turn_list (hstate : m.state = .hexPayload) (hfront : m.front = .lineStart)
    {payload : Text} (hat : m.line.At place payload) :
    settled (m.turn place) =
      settled ((m.anew .lineStart).obey (.ofList m.valueName m.dataType payload)) := by
  have hstep : m.step place = m.hexStep place := by rw [step, hstate]
  rw [hexStep, hat.fromPlace] at hstep
  rcases hread : HexList.readLine payload with ⟨ending, bytes⟩
  rw [hread] at hstep
  rcases ending with _ | _ | _
  · rw [continueList] at hstep
    rw [turn_abandoned hstep, Reading.ofList, hread]
  · rw [continueList] at hstep
    rw [turn_staged hstep, Reading.ofList, hread, hfront]
  · rw [continueList_continued] at hstep
    have hobey : (m.anew .lineStart).obey (.ofList m.valueName m.dataType payload) =
        (m.anew .lineStart).carryOut (.list m.valueName m.dataType bytes) := by
      rw [Reading.ofList, hread, obey, List.map_nil, note_nil]
    obtain ⟨hstate', hname, htype, hdialect, -, -⟩ := m.kept_of_gather bytes
    have hfront' : (m.gather bytes).2.front = m.front := front_congr hdialect
    rw [hobey, settled_list]
    rcases hgather : m.gather bytes with ⟨ending, m'⟩
    rw [hgather] at hstep hstate' hname htype hfront'
    cases ending with
    | complete bytes =>
        rw [turn_staged hstep, settled_value, hname, htype, hfront', hfront]
    | malformed =>
        have hgivenUp : m.step place = (.proceed 0, m'.abandon .invalidHexData) := hstep
        rw [turn_abandoned hgivenUp, settled_fault]
    | missing =>
        rw [turn_of_finished hstep]
        rfl
    | failed e =>
        rw [turn_of_failed hstep, ← hstate, ← hstate']
        rfl

/-- The rest of a line that is the payload of a value. -/
theorem turn_payload {tag : TypeTag} (hstate : m.state = payloadState tag.payload)
    (htype : m.dataType = tag.declared) (hfront : m.front = .lineStart) {payload : Text}
    (hat : m.line.At place payload) :
    settled (m.turn place) =
      settled ((m.anew .lineStart).obey (.ofPayload m.valueName tag payload)) := by
  rw [Reading.ofPayload, ← htype]
  cases hpayload : tag.payload with
  | escapedText => exact turn_string (by rw [hstate, hpayload]; rfl) hfront hat
  | dword => exact turn_dword (by rw [hstate, hpayload]; rfl) hfront hat
  | hexList => exact turn_list (by rw [hstate, hpayload]; rfl) hfront hat

/-- The payload of a tag stands behind it. -/
theorem exists_eq_payload {data payload : Text} {tag : TypeTag}
    (h : TypeTag.read? data = some (tag, payload)) : ∃ front, data = front ++ payload := by
  cases TypeTag.read?_eq_some_iff.mp h with
  | string => exact ⟨['"'], rfl⟩
  | binary | dword | typed => exact ⟨_, rfl⟩

/-- The rest of a line that is the data of a value and asks for no deletion. -/
theorem turn_data (hstate : m.state = .typeTag) (hfront : m.front = .lineStart) {data : Text}
    (hkept : data.startsWith ['-'] = false) (hat : m.line.At place data) :
    settled (m.turn place) =
      settled ((m.anew .lineStart).obey (.ofData m.valueName data)) := by
  have hstep : m.step place = m.typeTagStep place := by rw [step, hstate]
  rw [typeTagStep, hat.fromPlace] at hstep
  rw [Reading.ofData, hkept]
  cases htag : TypeTag.read? data with
  | none =>
      simp only [htag] at hstep
      rw [turn_given_up hstep]
      rfl
  | some read =>
      obtain ⟨tag, payload⟩ := read
      simp only [htag] at hstep
      obtain ⟨front, hdata⟩ := exists_eq_payload htag
      rw [turn_of_proceed hstep (by rw [rank_payloadState]; decide)]
      exact turn_payload (m := { m with
        dataType := tag.declared
        state := payloadState tag.payload }) rfl rfl hfront (hat.rest hdata)

/-- The rest of a line that is what follows the name of a value. -/
theorem turn_assignment (hstate : m.state = .assignment) (hfront : m.front = .lineStart)
    {rest : Text} (hat : m.line.At place rest) :
    settled (m.turn place) =
      settled ((m.anew .lineStart).obey (.ofAssignment m.valueName rest)) := by
  have hstep : m.step place = m.assignmentStep place := by rw [step, hstate]
  rw [assignmentStep, hat.fromPlace] at hstep
  rw [Reading.ofAssignment]
  cases hequals : Text.after? ['='] rest.skipBlanks with
  | none =>
      simp only [hequals] at hstep
      rw [turn_given_up hstep]
  | some behind =>
      have hbehind : m.line.At (m.line.placeOf behind.skipBlanks) behind.skipBlanks :=
        (hat.skipBlanks.rest (Text.after?_eq_some_iff.mp hequals)).skipBlanks
      have hcut := hbehind.cut
      simp only [hequals, hcut.fromPlace] at hstep
      by_cases hminus : behind.skipBlanks.trimBlanksRight.startsWith ['-']
      · rw [if_pos hminus] at hstep
        simp only [turn_given_up hstep, Reading.ofData, hminus, if_true]
        rfl
      · rw [if_neg hminus] at hstep
        rw [turn_of_proceed hstep (by simp [enter, ImportState.rank])]
        exact turn_data (m := { m with
          line := m.line.untilPlace (m.line.placeOf behind.skipBlanks +
            behind.skipBlanks.trimBlanksRight.byteLength)
          state := .typeTag }) rfl hfront (by simpa using hminus) hcut

/-- The rest of a line that is what follows the opening quote of a name. -/
theorem turn_quoted (hstate : m.state = .quotedName) (hfront : m.front = .lineStart)
    {rest : Text} (hat : m.line.At place rest) :
    settled (m.turn place) = settled ((m.anew .lineStart).obey (.ofQuoted rest)) := by
  have hstep : m.step place = m.quotedNameStep place := by rw [step, hstate]
  rw [quotedNameStep, hat.fromPlace] at hstep
  rw [Reading.ofQuoted]
  cases hread : Escaped.read? rest with
  | none =>
      simp only [hread] at hstep
      rw [turn_given_up hstep]
      rfl
  | some name =>
      obtain ⟨written, hrest, -⟩ := Escaped.read?_eq_some_iff.mp hread
      have hname : rest = (written ++ ['"']) ++ name.rest := by rw [hrest]; simp
      simp only [hread] at hstep
      rw [turn_of_proceed hstep (by simp [ImportState.rank]), obey_behind]
      exact turn_assignment (m := { m.note (name.unknown.map .unknownEscape) with
        valueName := some name.text
        state := .assignment }) rfl hfront (hat.rest hname)

/-- The rest of a line that is what follows an opening bracket. -/
theorem turn_bracket (hstate : m.state = .keyName)
    {rest : Text} (hat : m.line.At place rest) :
    settled (m.turn place) = settled ((m.anew .lineStart).obey (.ofBracket rest)) := by
  have hstep : m.step place = m.keyNameStep place := by rw [step, hstate]
  rw [keyNameStep, hat.fromPlace] at hstep
  rw [Reading.ofBracket]
  cases hname : bracketed? rest with
  | none =>
      simp only [hname] at hstep
      rw [turn_given_up hstep]
  | some name =>
      simp only [hname] at hstep
      cases hminus : Text.after? ['-'] name with
      | some path =>
          simp only [hminus] at hstep
          simp only [turn_given_up hstep, hminus]
      | none =>
          simp only [hminus] at hstep
          have hopened :
              settled (m.turn place) = (.proceed 0, (m.openKey name).2.anew .lineStart) :=
            settled_turn_of_step hstep rfl
          simp only [hopened, hminus, settled_key, anew_openKey]

/-! ### Whole turns -/

/-- A line of a structured file. -/
theorem turn_line {m' : Importer ρ σ κ} (hstate : m.state = .lineStart)
    (hfront : m.front = .lineStart) (hfetch : m.fetch = (.ok true, m')) :
    settled (m.turn place) = settled ((m'.anew .lineStart).obey (.ofLine m'.line)) := by
  obtain ⟨hstate', -, -, hdialect, -, -⟩ := kept_of_fetch hfetch
  have hfront' : m'.front = .lineStart := (front_congr hdialect).trans hfront
  have hstep : m.step place = m'.dispatch := by
    rw [step, hstate]
    simp only [lineStartStep, hfetch]
  have hat := (Text.at_zero m'.line).skipBlanks
  simp only [dispatch] at hstep
  rw [Reading.ofLine]
  split
  next rest hskip =>
    rw [hskip] at hstep hat
    rw [turn_of_proceed hstep (by simp [enter, ImportState.rank])]
    exact turn_bracket (m := m'.enter .keyName) rfl (hat.next (by decide))
  next rest hskip =>
    rw [hskip] at hstep hat
    rw [turn_of_proceed hstep (by simp [enter, ImportState.rank])]
    have hname : (m'.enter .defaultName).step (m'.line.placeOf ('@' :: rest)) =
        (.proceed (m'.line.placeOf ('@' :: rest) + 1),
          { m' with valueName := none, state := .assignment }) := rfl
    rw [turn_of_proceed hname (by simp [ImportState.rank])]
    exact turn_assignment (m := { m' with valueName := none, state := .assignment }) rfl hfront'
      (hat.next (by decide))
  next rest hskip =>
    rw [hskip] at hstep hat
    rw [turn_of_proceed hstep (by simp [enter, ImportState.rank])]
    exact turn_quoted (m := m'.enter .quotedName) rfl hfront' (hat.next (by decide))
  next hbracket hsign hquote =>
    have hpassed : m.step place = (.proceed (m'.line.placeOf m'.line.skipBlanks), m') := by
      rw [hstep]
      split
      next rest hskip => exact absurd hskip (hbracket rest)
      next rest hskip => exact absurd hskip (hsign rest)
      next rest hskip => exact absurd hskip (hquote rest)
      next => rfl
    have hstart : m'.state = .lineStart := hstate'.trans hstate
    rw [settled_turn_of_step hpassed (by rw [hstart]; rfl), hstart, obey, List.map_nil, note_nil]
    rfl

/-- A line of the Windows 3.1 dialect. -/
theorem turn_windows31 {m' : Importer ρ σ κ} (hstate : m.state = .windows31Line)
    (hfront : m.front = .windows31Line) (hfetch : m.fetch = (.ok true, m')) :
    settled (m.turn place) = settled ((m'.anew .windows31Line).obey (.ofWindows31 m'.line)) := by
  obtain ⟨hstate', -, -, hdialect, -, -⟩ := kept_of_fetch hfetch
  have hstep : m.step place =
      if m'.line.startsWith classesRootToken then m'.windows31Assignment else (.proceed 0, m') := by
    rw [step, hstate]
    simp only [windows31Step, hfetch]
  rw [Reading.ofWindows31]
  by_cases hroot : m'.line.startsWith classesRootToken
  · rw [if_pos hroot] at hstep
    simp only [hroot, if_true]
    rw [windows31Assignment] at hstep
    rcases hopen : m'.openKey (m'.line.takeWhile fun c => !isWhiteSpace c) with ⟨opened, n⟩
    simp only [hopen] at hstep
    have hfront' : n.front = .windows31Line := by
      have hkept := m'.dialect_openKey (m'.line.takeWhile fun c => !isWhiteSpace c)
      rw [hopen] at hkept
      exact (front_congr (hkept.trans hdialect)).trans hfront
    rw [settled_entry, hopen]
    cases opened with
    | false =>
        have hstart : n.state = .windows31Line := by
          have hkept := m'.state_openKey (m'.line.takeWhile fun c => !isWhiteSpace c)
          rw [hopen] at hkept
          exact hkept.trans (hstate'.trans hstate)
        have hkey : n.key = none := key_of_refused hopen
        have hkey' : (n.anew .windows31Line).key = none := hkey
        rw [settled_turn_of_step hstep (by rw [hstart]; rfl), hstart, write, hkey']
    | true =>
        rw [turn_of_proceed hstep (by simp [ImportState.rank]), ← hfront']
        exact turn_writing rfl rfl
  · rw [if_neg hroot] at hstep
    have hstart : m'.state = .windows31Line := hstate'.trans hstate
    simp only [hroot]
    rw [settled_turn_of_step hstep (by rw [hstart]; rfl), hstart]
    simp only [Bool.false_eq_true, if_false, obey, List.map_nil, note_nil]
    rfl

/-- **Settled, a turn does what its line states.** -/
theorem turn_of_line {m' : Importer ρ σ κ} (hstate : m.state = m.front)
    (hfetch : m.fetch = (.ok true, m')) (place : Nat) :
    settled (m.turn place) = settled ((m'.anew m.front).obey (.ofBody m.front m'.line)) := by
  by_cases hwindows : m.dialect = some .windows31
  · have hfront : m.front = .windows31Line := if_pos hwindows
    rw [hfront]
    exact turn_windows31 (hstate.trans hfront) hfront hfetch
  · have hfront : m.front = .lineStart := if_neg hwindows
    rw [hfront]
    exact turn_line (hstate.trans hfront) hfront hfetch

/-- The turn that meets the end of the lines. -/
theorem turn_of_end {m' : Importer ρ σ κ} (hstate : m.state = m.front)
    (hfetch : m.fetch = (.ok false, m')) : m.turn place = (.finished, m') := by
  refine turn_of_finished ?_
  by_cases hwindows : m.dialect = some .windows31
  · rw [step, hstate, front, if_pos hwindows]
    simp only [windows31Step, hfetch]
  · rw [step, hstate, front, if_neg hwindows]
    simp only [lineStartStep, hfetch]

/-- The turn that meets a failing read. -/
theorem turn_of_error {m' : Importer ρ σ κ} {e : ImportError} (hstate : m.state = m.front)
    (hfetch : m.fetch = (.error e, m')) : m.turn place = (.failed e, m') := by
  refine turn_of_failed ?_
  by_cases hwindows : m.dialect = some .windows31
  · rw [step, hstate, front, if_pos hwindows]
    simp only [windows31Step, hfetch]
  · rw [step, hstate, front, if_neg hwindows]
    simp only [lineStartStep, hfetch]

/-! ### Moments in front of a line -/

/-- The turn in front of the header is one step. -/
theorem turn_header (hstate : m.state = .header) : m.turn place = m.headerStep := by
  have hstep : m.step place = m.headerStep := by rw [step, hstate]
  rcases hheader : m.headerStep with ⟨progress, m'⟩
  rw [hheader] at hstep
  cases progress with
  | finished => exact turn_of_finished hstep
  | failed e => exact turn_of_failed hstep
  | proceed next =>
      refine turn_of_last hstep ?_
      have hclassify : ∀ n : Importer ρ σ κ, n.classify = (.proceed next, m') →
          m'.state.rank = 0 := by
        intro n hn
        simp only [classify] at hn
        split at hn
        · cases hn
        · split at hn <;> cases hn <;> rfl
      simp only [headerStep] at hheader
      split at hheader
      · cases hheader
      · exact hclassify _ hheader
      · exact hclassify _ hheader

/-- The dialect stays as it is, and so does the state unless a read fails. -/
theorem front_obey (m : Importer ρ σ κ) (r : Reading) :
    (m.obey r).2.dialect = m.dialect ∧
      ((∃ e, (m.obey r).1 = .failed e) ∨ (m.obey r).2.state = m.state) := by
  obtain ⟨unknown, statement⟩ := r
  cases statement with
  | nothing | fault kind => exact ⟨rfl, Or.inr rfl⟩
  | key path => exact ⟨dialect_openKey _ path, Or.inr (state_openKey _ path)⟩
  | value w => exact ⟨dialect_write _ w, Or.inr (state_write _ w)⟩
  | entry path w =>
      exact ⟨(dialect_write _ w).trans (dialect_openKey _ path),
        Or.inr ((state_write _ w).trans (state_openKey _ path))⟩
  | list name type bytes =>
      obtain ⟨hstate, -, -, hdialect, -, -⟩ :=
        (m.note (unknown.map .unknownEscape)).kept_of_gather bytes
      simp only [obey, carryOut]
      revert hstate hdialect
      rcases (m.note (unknown.map .unknownEscape)).gather bytes with ⟨ending, m'⟩
      intro hstate hdialect
      cases ending with
      | complete bytes =>
          exact ⟨(dialect_write m' _).trans hdialect, Or.inr ((state_write m' _).trans hstate)⟩
      | malformed | missing => exact ⟨hdialect, Or.inr hstate⟩
      | failed e => exact ⟨hdialect, Or.inl ⟨e, rfl⟩⟩

/-- The importer stands in front of the header or of a line of the body. -/
def Between (m : Importer ρ σ κ) : Prop :=
  m.state = .header ∨ m.state = m.front

omit [LineSupply ρ] [RegistryStore σ κ] in
/-- At the start of a line an importer is between two lines. -/
theorem Between.eq_front (h : m.Between) (hstate : m.state = .lineStart) : m.state = m.front := by
  rcases h with hheader | hfront
  · rw [hstate] at hheader
    cases hheader
  · exact hfront

omit [LineSupply ρ] [RegistryStore σ κ] in
/-- Behind the header an importer is between two lines, too. -/
theorem between_classify {m m' : Importer ρ σ κ} {next : Nat}
    (h : m.classify = (.proceed next, m')) : m'.state = m'.front := by
  simp only [classify] at h
  cases hdialect : Dialect.ofHeader m.line <;>
    simp only [hdialect, Dialect.isImportable, Dialect.isStructured] at h <;> cases h <;> rfl

/-- Behind a turn that does not end the loop stands a line of the body. -/
theorem front_turn {m' : Importer ρ σ κ} {next : Nat} (h : m.Between)
    (hturn : m.turn place = (.proceed next, m')) : m'.state = m'.front := by
  rcases h with hheader | hfront
  · rw [turn_header hheader, headerStep] at hturn
    split at hturn
    · cases hturn
    · exact between_classify hturn
    · exact between_classify hturn
  rcases hfetch : m.fetch with ⟨e | _ | _, m''⟩
  · rw [turn_of_error hfront hfetch] at hturn
    cases hturn
  · rw [turn_of_end hfront hfetch] at hturn
    cases hturn
  · obtain ⟨hprogress, -, -, -, hstate, hturned, -⟩ :=
      settled_eq_iff.mp (turn_of_line hfront hfetch place)
    obtain ⟨hdialect, ⟨e, he⟩ | hkept⟩ := front_obey (m''.anew m.front) (.ofBody m.front m''.line)
    · rw [hturn, he] at hprogress
      cases hprogress
    · obtain ⟨-, -, -, hfetched, -, -⟩ := kept_of_fetch hfetch
      rw [hturn] at hstate hturned
      have hsame : m'.front = m.front :=
        front_congr (hturned.trans (hdialect.trans hfetched))
      rw [hstate, hkept, hsame]
      rfl

/-- **So it is whenever a turn begins.** -/
theorem Between.visits {m' : Importer ρ σ κ} {place' : Nat} (h : m.Between)
    (hvisits : m.Visits place m' place') : m'.Between :=
  hvisits.induct (fun hm hturn => Or.inr (front_turn hm hturn)) h

end Turns

end RegistryText.Importer
