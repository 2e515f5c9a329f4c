import RegistryText.Proofs.Import.Invariant
import RegistryText.Proofs.Lines.Listed

/-!
# The body of a file

Behind its header an importer is in one of the states of the body.  **No step leads
from there back in front of the header or changes the dialect, neither the one that the
importer keeps nor the one that it reports, and the only failure that a step can meet is
that of a read** (`step_staysInBody`): a malformed line, a key that is not opened and a
value that is not set all go into the report.

So a loop that begins in the body stays there, and over a supply whose reads do not
fail it comes to the end of the lines (`loop_staysInBody`, `run_of_body`).
-/

namespace RegistryText.Importer

variable {ρ σ κ : Type} {m m' : Importer ρ σ κ}

/-- The importer has come from `m`, in the body of a file. -/
structure StaysInBody (m m' : Importer ρ σ κ) : Prop where
  dialect : m'.dialect = m.dialect
  reported : m'.report.dialect = m.report.dialect
  state : m'.state ≠ .header

/-- Who stays in the body on two ways stays in it on both. -/
theorem StaysInBody.trans {m'' : Importer ρ σ κ} (h : StaysInBody m m')
    (h' : StaysInBody m' m'') : StaysInBody m m'' :=
  ⟨h'.dialect.trans h.dialect, h'.reported.trans h.reported, h'.state⟩

/-- The error is that of a read that fails. -/
def IsReadFailure (ρ : Type) [LineSupply ρ] (e : ImportError) : Prop :=
  ∃ (lines : ρ) (message : Text),
    (LineSupply.next lines).1 = .error message ∧ e = .io message

/-- A list of lines has no read that fails. -/
theorem not_isReadFailure_listed (e : ImportError) : ¬IsReadFailure ListedLines e := by
  rintro ⟨⟨_ | ⟨line, left⟩, given⟩, message, hnext, -⟩ <;> cases hnext

/-! ### The way into the body -/

/-- A header that can be imported is read once; behind it comes the body. -/
theorem classify_of_isImportable (h : (Dialect.ofHeader m.line).isImportable = true) :
    ∃ m', m.classify = (.proceed 0, m') ∧ m'.dialect = some (Dialect.ofHeader m.line) ∧
      m'.state ≠ .header := by
  simp only [classify, h, Bool.not_true, Bool.false_eq_true, if_false]
  split
  · exact ⟨_, rfl, rfl, by rintro ⟨⟩⟩
  · exact ⟨_, rfl, rfl, by rintro ⟨⟩⟩

/-- Any other header ends the import in front of the body. -/
theorem classify_of_not_isImportable (h : (Dialect.ofHeader m.line).isImportable = false) :
    m.classify = (.failed (ImportError.ofHeader (Dialect.ofHeader m.line) m.line),
      m.named (Dialect.ofHeader m.line)) := by
  simp only [classify, h, Bool.not_false, if_true]

/-! ### Steps -/

section Step

variable [LineSupply ρ]

/-- A step of the body: what it leaves, and with which failure it can end the loop. -/
structure BodyStep (m : Importer ρ σ κ) (r : Progress × Importer ρ σ κ) : Prop
    extends StaysInBody m r.2 where
  failed : ∀ e, r.1 = .failed e → IsReadFailure ρ e

/-- A step that goes on in the body cannot fail. -/
theorem StaysInBody.proceed {place : Nat} (h : StaysInBody m m') :
    BodyStep m (.proceed place, m') :=
  { h with failed := fun _ he => nomatch he }

/-- A step that ends a run in the body fails nowhere. -/
theorem StaysInBody.finished (h : StaysInBody m m') : BodyStep m (.finished, m') :=
  { h with failed := fun _ he => nomatch he }

/-- A fetched line leaves an importer in the body. -/
theorem staysInBody_fetch {answer : Except ImportError Bool} (hbody : m.state ≠ .header)
    (hfetch : m.fetch = (answer, m')) : StaysInBody m m' := by
  obtain ⟨hstate, -, -, hdialect, -, -⟩ := kept_of_fetch hfetch
  exact ⟨hdialect, reported_fetch hfetch, hstate ▸ hbody⟩

/-- What has come to a failing read has the failure of the read. -/
theorem bodyStep_of_error {e : ImportError} (hbody : m.state ≠ .header)
    (hfetch : m.fetch = (.error e, m')) : BodyStep m (.failed e, m') := by
  refine { staysInBody_fetch hbody hfetch with failed := ?_ }
  rintro _ ⟨⟩
  rcases hnext : LineSupply.next m.lines with ⟨message | _ | line, rest⟩ <;>
    simp only [fetch, hnext] at hfetch <;> cases hfetch
  exact ⟨m.lines, message, congrArg Prod.fst hnext, rfl⟩

/-- What stays in the body behind a line is a step from in front of it. -/
theorem BodyStep.of_fetch {r : Progress × Importer ρ σ κ} {answer : Except ImportError Bool}
    (hfetch : m.fetch = (answer, m')) (hbody : m.state ≠ .header) (h : BodyStep m' r) :
    BodyStep m r :=
  { (staysInBody_fetch hbody hfetch).trans h.toStaysInBody with failed := h.failed }

/-- The first character of a line decides on a state of the body. -/
theorem bodyStep_dispatch (hbody : m.state ≠ .header) : BodyStep m m.dispatch := by
  simp only [dispatch]
  split
  · exact StaysInBody.proceed ⟨rfl, rfl, by rintro ⟨⟩⟩
  · exact StaysInBody.proceed ⟨rfl, rfl, by rintro ⟨⟩⟩
  · exact StaysInBody.proceed ⟨rfl, rfl, by rintro ⟨⟩⟩
  · exact StaysInBody.proceed ⟨rfl, rfl, hbody⟩

/-- Only the read of a line can fail. -/
theorem bodyStep_lineStartStep (hbody : m.state ≠ .header) : BodyStep m m.lineStartStep := by
  unfold lineStartStep
  split
  next e m' hfetch => exact bodyStep_of_error hbody hfetch
  next m' hfetch => exact (staysInBody_fetch hbody hfetch).finished
  next m' hfetch =>
    exact (bodyStep_dispatch (staysInBody_fetch hbody hfetch).state).of_fetch hfetch hbody

/-- The name of a value is read within the body, closed or not. -/
theorem bodyStep_quotedNameStep (m : Importer ρ σ κ) (place : Nat) :
    BodyStep m (m.quotedNameStep place) := by
  simp only [quotedNameStep]
  split
  · exact StaysInBody.proceed ⟨rfl, rfl, by rintro ⟨⟩⟩
  · exact StaysInBody.proceed ⟨rfl, rfl, by rintro ⟨⟩⟩

/-- So is an assignment, whatever follows the equals sign. -/
theorem bodyStep_assignmentStep (m : Importer ρ σ κ) (place : Nat) :
    BodyStep m (m.assignmentStep place) := by
  simp only [assignmentStep]
  split
  · exact StaysInBody.proceed ⟨rfl, rfl, by rintro ⟨⟩⟩
  · split
    · exact StaysInBody.proceed ⟨rfl, rfl, by rintro ⟨⟩⟩
    · exact StaysInBody.proceed ⟨rfl, rfl, by rintro ⟨⟩⟩

/-- So is a type tag, known or not. -/
theorem bodyStep_typeTagStep (m : Importer ρ σ κ) (place : Nat) :
    BodyStep m (m.typeTagStep place) := by
  simp only [typeTagStep]
  split
  · exact StaysInBody.proceed ⟨rfl, rfl, by rintro ⟨⟩⟩
  next tag payload _ =>
    refine StaysInBody.proceed ⟨rfl, rfl, ?_⟩
    cases hpayload : tag.payload <;> simp [payloadState]

/-- So is a string. -/
theorem bodyStep_stringStep (m : Importer ρ σ κ) (place : Nat) :
    BodyStep m (m.stringStep place) := by
  simp only [stringStep]
  split
  · exact StaysInBody.proceed ⟨rfl, rfl, by rintro ⟨⟩⟩
  · split
    · exact StaysInBody.proceed ⟨rfl, rfl, by rintro ⟨⟩⟩
    · exact StaysInBody.proceed ⟨rfl, rfl, by rintro ⟨⟩⟩

/-- So is a number. -/
theorem bodyStep_dwordStep (m : Importer ρ σ κ) (place : Nat) :
    BodyStep m (m.dwordStep place) := by
  simp only [dwordStep]
  split
  · exact StaysInBody.proceed ⟨rfl, rfl, by rintro ⟨⟩⟩
  · exact StaysInBody.proceed ⟨rfl, rfl, by rintro ⟨⟩⟩

/-- The lines of a list are taken in the body, by induction on them. -/
theorem bodyStep_continueList (hbody : m.state ≠ .header) (ending : Option HexList.Ending)
    (bytes : Bytes) : BodyStep m (m.continueList ending bytes) := by
  fun_induction continueList m ending bytes with
  | case1 m bytes => exact StaysInBody.proceed ⟨rfl, rfl, by rintro ⟨⟩⟩
  | case2 m bytes => exact StaysInBody.proceed ⟨rfl, rfl, by rintro ⟨⟩⟩
  | case3 m bytes e m' hfetch => exact bodyStep_of_error hbody hfetch
  | case4 m bytes m' hfetch =>
      have habandoned : StaysInBody m' (m'.abandon .invalidHexData) :=
        ⟨rfl, rfl, by rintro ⟨⟩⟩
      exact habandoned.finished.of_fetch hfetch hbody
  | case5 m bytes m' hfetch hless rest hcomment ih =>
      exact (ih (staysInBody_fetch hbody hfetch).state).of_fetch hfetch hbody
  | case6 m bytes m' hfetch hless rest hlist r ih =>
      exact (ih (staysInBody_fetch hbody hfetch).state).of_fetch hfetch hbody

variable [RegistryStore σ κ]

/-- Whether the store opens the key does not matter. -/
theorem staysInBody_openKey (hbody : m.state ≠ .header) (path : Text) :
    StaysInBody m (m.openKey path).2 :=
  ⟨dialect_openKey m path, reported_openKey m path, state_openKey m path ▸ hbody⟩

/-- A line of the Windows 3.1 dialect opens its key within the body. -/
theorem bodyStep_windows31Assignment (hbody : m.state ≠ .header) :
    BodyStep m m.windows31Assignment := by
  have hopened := staysInBody_openKey hbody (m.line.takeWhile fun c => !isWhiteSpace c)
  unfold windows31Assignment
  dsimp only
  split
  next m' heq =>
    rw [heq] at hopened
    exact hopened.proceed
  next m' heq =>
    rw [heq] at hopened
    exact StaysInBody.proceed ⟨hopened.dialect, hopened.reported, by rintro ⟨⟩⟩

/-- Only the read of its line can fail. -/
theorem bodyStep_windows31Step (hbody : m.state ≠ .header) : BodyStep m m.windows31Step := by
  unfold windows31Step
  split
  next e m' hfetch => exact bodyStep_of_error hbody hfetch
  next m' hfetch => exact (staysInBody_fetch hbody hfetch).finished
  next m' hfetch =>
    have hfetched := staysInBody_fetch hbody hfetch
    split
    · exact (bodyStep_windows31Assignment hfetched.state).of_fetch hfetch hbody
    · exact hfetched.proceed

/-- A key may be refused, but no refusal ends the run. -/
theorem bodyStep_keyNameStep (m : Importer ρ σ κ) (place : Nat) :
    BodyStep m (m.keyNameStep place) := by
  unfold keyNameStep
  split
  · exact StaysInBody.proceed ⟨rfl, rfl, by rintro ⟨⟩⟩
  next name _ =>
    split
    · exact StaysInBody.proceed ⟨rfl, rfl, by rintro ⟨⟩⟩
    · exact StaysInBody.proceed ⟨dialect_openKey m name, reported_openKey m name, by rintro ⟨⟩⟩

/-- Whether the store sets the value does not matter. -/
theorem bodyStep_writingStep (m : Importer ρ σ κ) (place : Nat) :
    BodyStep m (m.writingStep place) := by
  unfold writingStep
  dsimp only
  split
  · exact StaysInBody.proceed ⟨m.dialect_setStaged, m.reported_setStaged, by rintro ⟨⟩⟩
  · exact StaysInBody.proceed ⟨m.dialect_setStaged, m.reported_setStaged, by rintro ⟨⟩⟩

/-- **A step of the body stays in the body, keeps the dialect, and fails only with a
read.** -/
theorem step_staysInBody (hbody : m.state ≠ .header) (place : Nat) :
    BodyStep m (m.step place) := by
  cases hstate : m.state <;> simp only [step, hstate]
  case header => exact absurd hstate hbody
  case windows31Line => exact bodyStep_windows31Step hbody
  case lineStart => exact bodyStep_lineStartStep hbody
  case keyName => exact bodyStep_keyNameStep m place
  case defaultName => exact StaysInBody.proceed ⟨rfl, rfl, by rintro ⟨⟩⟩
  case quotedName => exact bodyStep_quotedNameStep m place
  case assignment => exact bodyStep_assignmentStep m place
  case typeTag => exact bodyStep_typeTagStep m place
  case stringPayload => exact bodyStep_stringStep m place
  case dwordPayload => exact bodyStep_dwordStep m place
  case hexPayload => exact bodyStep_continueList hbody _ _
  case writing => exact bodyStep_writingStep m place

/-! ### Turns, loops and runs -/

/-- A turn of the body stays in the body. -/
theorem turn_staysInBody (hbody : m.state ≠ .header) (place : Nat) :
    StaysInBody m (m.turn place).2 := by
  fun_induction turn m place with
  | case1 m place next m' hstep hless hrank | case3 m place m' hstep | case4 m place e m' hstep =>
      have hstays := (step_staysInBody hbody place).toStaysInBody
      rwa [hstep] at hstays
  | case2 m place next m' hstep hless hrank ih =>
      have hstays := (step_staysInBody hbody place).toStaysInBody
      rw [hstep] at hstays
      exact hstays.trans (ih hstays.state)

/-- So does the loop, by induction on the number of steps that are left. -/
theorem loop_staysInBody (hbody : m.state ≠ .header) (place : Nat) :
    StaysInBody m (m.loop place).2 ∧ ∀ e, (m.loop place).1 = .error e → IsReadFailure ρ e := by
  induction hremaining : m.remaining using Nat.strongRecOn generalizing m place with
  | ind remaining ih =>
      obtain ⟨hstays, hfailed⟩ := step_staysInBody hbody place
      rcases hstep : m.step place with ⟨progress, m'⟩
      rw [hstep] at hstays hfailed
      cases progress with
      | proceed next =>
          rw [loop_of_proceed hstep]
          obtain ⟨hrest, hends⟩ :=
            ih m'.remaining (hremaining ▸ remaining_step hstep) hstays.state next rfl
          exact ⟨hstays.trans hrest, hends⟩
      | finished =>
          rw [loop_of_finished hstep]
          exact ⟨hstays, fun e he => nomatch he⟩
      | failed e =>
          rw [loop_of_failed hstep]
          refine ⟨hstays, ?_⟩
          rintro _ ⟨⟩
          exact hfailed e rfl

/-- The end of a run is not seen in the state or the dialect. -/
theorem finish_kept (m : Importer ρ σ κ) :
    m.finish.state = m.state ∧ m.finish.dialect = m.dialect :=
  m.closeKey_kept

/-- So the end of a run stays in the body. -/
theorem StaysInBody.finish (h : StaysInBody m m') : StaysInBody m m'.finish where
  dialect := m'.finish_kept.2.trans h.dialect
  reported := (congrArg ImportReport.dialect m'.report_closeKey).trans h.reported
  state hheader := h.state (m'.finish_kept.1.symm.trans hheader)

/-- A run leaves what its loop has left, finished. -/
theorem run_snd (m : Importer ρ σ κ) : m.run.2 = (m.loop 0).2.finish := by
  simp only [run]
  split <;> rfl

/-- **A run from the body keeps the dialect.**  Without failing reads its outcome is that of
the dialect. -/
theorem run_of_body (hbody : m.state ≠ .header) :
    StaysInBody m m.run.2 ∧
      ((∀ e, ¬IsReadFailure ρ e) → m.run.1 = outcome m.dialect) := by
  obtain ⟨hstays, hfails⟩ := loop_staysInBody hbody 0
  have hended := hstays.finish
  refine ⟨run_snd m ▸ hended, fun hreads => ?_⟩
  rcases hloop : (m.loop 0).1 with e | _
  · exact absurd (hfails e hloop) (hreads e)
  · simp only [run, hloop]
    exact congrArg outcome hended.dialect

end Step

end RegistryText.Importer
