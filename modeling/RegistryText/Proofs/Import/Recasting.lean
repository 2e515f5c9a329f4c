import RegistryText.Import.Run
import RegistryText.Proofs.Import.Quiet
import RegistryText.Proofs.Lines.Listed

/-!
# Imports with other lines and stores

An import looks at its lines only through their answers, at its store only
through the answers to its calls, and never at the encoding in its report.  So
two imports whose lines are alike, and of which one has a store that a morphism
maps to the other's, go through the same states.

`recast` replaces lines, store and encoding of an importer.  The equations of
this file say that every part of a step commutes with it as long as the counts
of lines agree; `step_recast` puts them together, and **`run_recast` carries
them to a whole run**: the outcome is the same, and the importer behind one run
is a recast of the one behind the other.
-/

namespace RegistryText

/-- A map between stores that keeps every answer. -/
structure RegistryStore.Morphism {σ τ κ : Type} [RegistryStore σ κ] [RegistryStore τ κ]
    (f : σ → τ) : Prop where
  resolveRoot : ∀ store path,
    RegistryStore.resolveRoot (κ := κ) (f store) path =
      RegistryStore.resolveRoot (κ := κ) store path
  openKey : ∀ store root path,
    RegistryStore.openKey (f store) root path =
      ((RegistryStore.openKey store root path).1, f (RegistryStore.openKey store root path).2)
  closeKey : ∀ store (key : κ),
    RegistryStore.closeKey (f store) key = f (RegistryStore.closeKey store key)
  setValue : ∀ store (key : κ) name type data,
    RegistryStore.setValue (f store) key name type data =
      ((RegistryStore.setValue store key name type data).1,
        f (RegistryStore.setValue store key name type data).2)

/-- Every store is mapped to itself. -/
theorem RegistryStore.morphism_id {σ κ : Type} [RegistryStore σ κ] :
    RegistryStore.Morphism (fun store : σ => store) where
  resolveRoot _ _ := rfl
  openKey _ _ _ := rfl
  closeKey _ _ := rfl
  setValue _ _ _ _ _ := rfl

namespace Importer

variable {ρ ρ' σ τ κ : Type}

/-- The importer with other lines, another store and another encoding. -/
def recast (f : σ → τ) (lines : ρ') (encoding : FileEncoding) (m : Importer ρ σ κ) :
    Importer ρ' τ κ where
  lines := lines
  store := f m.store
  line := m.line
  state := m.state
  key := m.key
  valueName := m.valueName
  dataType := m.dataType
  staged := m.staged
  dialect := m.dialect
  report := { m.report with encoding := encoding }

section Fields

variable (f : σ → τ) (lines : ρ') (encoding : FileEncoding) (m : Importer ρ σ κ)

/-- A recast takes its lines from the new supply. -/
@[simp] theorem lines_recast : (m.recast f lines encoding).lines = lines := rfl

/-- The store of a recast is the image of the old one. -/
@[simp] theorem store_recast : (m.recast f lines encoding).store = f m.store := rfl

/-- The current line stays. -/
@[simp] theorem line_recast : (m.recast f lines encoding).line = m.line := rfl

/-- The state stays. -/
@[simp] theorem state_recast : (m.recast f lines encoding).state = m.state := rfl

/-- The open key stays: both stores have the same handles. -/
@[simp] theorem key_recast : (m.recast f lines encoding).key = m.key := rfl

/-- The name of the value stays. -/
@[simp] theorem valueName_recast : (m.recast f lines encoding).valueName = m.valueName := rfl

/-- The declared type stays. -/
@[simp] theorem dataType_recast : (m.recast f lines encoding).dataType = m.dataType := rfl

/-- The data that is ready stays. -/
@[simp] theorem staged_recast : (m.recast f lines encoding).staged = m.staged := rfl

/-- The dialect stays. -/
@[simp] theorem dialect_recast : (m.recast f lines encoding).dialect = m.dialect := rfl

/-- Another state may be entered before or after. -/
@[simp] theorem enter_recast (state : ImportState) :
    (m.recast f lines encoding).enter state = (m.enter state).recast f lines encoding := rfl

/-- The dialect of the header may be noted before or after. -/
@[simp] theorem named_recast (d : Dialect) :
    (m.recast f lines encoding).named d = (m.named d).recast f lines encoding := rfl

/-- A header line is judged alike. -/
theorem classify_recast : (m.recast f lines encoding).classify =
    (m.classify.1, m.classify.2.recast f lines encoding) := by
  cases himport : (Dialect.ofHeader m.line).isImportable <;>
    cases hstructured : (Dialect.ofHeader m.line).isStructured <;>
      simp [classify, himport, hstructured]

/-- The first character of a line is judged alike. -/
theorem dispatch_recast : (m.recast f lines encoding).dispatch =
    (m.dispatch.1, m.dispatch.2.recast f lines encoding) := by
  simp only [dispatch, line_recast]
  split <;> rfl

end Fields

section Parts

variable [LineSupply ρ] [LineSupply ρ'] {f : σ → τ} {lines : ρ'} {encoding : FileEncoding}
  {m : Importer ρ σ κ}

/-- Notes agree if the counts of lines do. -/
theorem note_recast (hnumber : LineSupply.lineNumber m.lines = LineSupply.lineNumber lines)
    (kinds : List DiagnosticKind) :
    (m.recast f lines encoding).note kinds = (m.note kinds).recast f lines encoding := by
  simp only [note, recast, hnumber]

/-- So does giving a line up. -/
theorem giveUp_recast (hnumber : LineSupply.lineNumber m.lines = LineSupply.lineNumber lines)
    (kind : DiagnosticKind) :
    (m.recast f lines encoding).giveUp kind = (m.giveUp kind).recast f lines encoding := by
  rw [giveUp, note_recast hnumber]
  rfl

/-- So does giving a payload up. -/
theorem abandon_recast (hnumber : LineSupply.lineNumber m.lines = LineSupply.lineNumber lines)
    (kind : DiagnosticKind) :
    (m.recast f lines encoding).abandon kind = (m.abandon kind).recast f lines encoding :=
  giveUp_recast (m := { m with staged := none }) hnumber kind

/-- The name of a value is read alike. -/
theorem quotedNameStep_recast
    (hnumber : LineSupply.lineNumber m.lines = LineSupply.lineNumber lines)
    (place : Nat) : (m.recast f lines encoding).quotedNameStep place =
    ((m.quotedNameStep place).1, (m.quotedNameStep place).2.recast f lines encoding) := by
  cases hread : Escaped.read? (m.line.fromPlace place) <;>
    simp [quotedNameStep, giveUp, enter, note, recast, hread, hnumber]

/-- The equals sign is read alike, and the line is cut at the same place. -/
theorem assignmentStep_recast
    (hnumber : LineSupply.lineNumber m.lines = LineSupply.lineNumber lines)
    (place : Nat) : (m.recast f lines encoding).assignmentStep place =
    ((m.assignmentStep place).1, (m.assignmentStep place).2.recast f lines encoding) := by
  cases hread : Text.after? ['='] (m.line.fromPlace place).skipBlanks with
  | none => simp [assignmentStep, giveUp, enter, note, recast, hread, hnumber]
  | some behind =>
      by_cases hminus : ((m.line.untilPlace (m.line.placeOf behind.skipBlanks +
          behind.skipBlanks.trimBlanksRight.byteLength)).fromPlace
            (m.line.placeOf behind.skipBlanks)).startsWith ['-'] <;>
        simp [assignmentStep, giveUp, enter, note, recast, hread, hminus, hnumber]

/-- The type tag is read alike. -/
theorem typeTagStep_recast
    (hnumber : LineSupply.lineNumber m.lines = LineSupply.lineNumber lines)
    (place : Nat) : (m.recast f lines encoding).typeTagStep place =
    ((m.typeTagStep place).1, (m.typeTagStep place).2.recast f lines encoding) := by
  cases hread : TypeTag.read? (m.line.fromPlace place) <;>
    simp [typeTagStep, giveUp, enter, note, recast, hread, hnumber]

/-- The payload of a string is read alike. -/
theorem stringStep_recast
    (hnumber : LineSupply.lineNumber m.lines = LineSupply.lineNumber lines)
    (place : Nat) : (m.recast f lines encoding).stringStep place =
    ((m.stringStep place).1, (m.stringStep place).2.recast f lines encoding) := by
  cases hread : Escaped.read? (m.line.fromPlace place) with
  | none => simp [stringStep, abandon, giveUp, enter, note, recast, hread, hnumber]
  | some s =>
      by_cases hend : s.rest.skipBlanks.isEmptyOrComment <;>
        simp [stringStep, stage, abandon, giveUp, enter, note, recast, hread, hend, hnumber]

/-- The payload of a doubleword is read alike. -/
theorem dwordStep_recast
    (hnumber : LineSupply.lineNumber m.lines = LineSupply.lineNumber lines)
    (place : Nat) : (m.recast f lines encoding).dwordStep place =
    ((m.dwordStep place).1, (m.dwordStep place).2.recast f lines encoding) := by
  cases hread : Dword.read? (m.line.fromPlace place) <;>
    simp [dwordStep, stage, abandon, giveUp, enter, note, recast, hread, hnumber]

end Parts

section Store

variable [RegistryStore σ κ] [RegistryStore τ κ] {f : σ → τ} {lines : ρ'} {encoding : FileEncoding}
  {m : Importer ρ σ κ}

/-- A morphism keeps that the open key is closed. -/
theorem closeKey_recast (hf : RegistryStore.Morphism f) :
    (m.recast f lines encoding).closeKey = m.closeKey.recast f lines encoding := by
  cases hkey : m.key <;> simp [closeKey, recast, hkey, hf.closeKey]

/-- A morphism keeps the answer to a request for a key. -/
theorem requestKey_morphism (hf : RegistryStore.Morphism f) (store : σ) (path : Text) :
    requestKey (f store) path =
      ((requestKey (κ := κ) store path).1, f (requestKey (κ := κ) store path).2) := by
  cases hroot : RegistryStore.resolveRoot (κ := κ) store path <;>
    simp [requestKey, hf.resolveRoot, hf.openKey, hroot]

variable [LineSupply ρ] [LineSupply ρ']

/-- A key is opened alike, and a refusal of it is noted alike. -/
theorem openKey_recast (hf : RegistryStore.Morphism f)
    (hnumber : LineSupply.lineNumber m.lines = LineSupply.lineNumber lines) (path : Text) :
    (m.recast f lines encoding).openKey path =
      ((m.openKey path).1, (m.openKey path).2.recast f lines encoding) := by
  simp only [openKey, closeKey_recast hf, store_recast, requestKey_morphism hf]
  rcases requestKey (κ := κ) m.closeKey.store path with ⟨answer, store⟩
  cases answer <;> simp [note, recast, hnumber]

/-- The name of a key is read alike, and the key is opened alike. -/
theorem keyNameStep_recast (hf : RegistryStore.Morphism f)
    (hnumber : LineSupply.lineNumber m.lines = LineSupply.lineNumber lines) (place : Nat) :
    (m.recast f lines encoding).keyNameStep place =
      ((m.keyNameStep place).1, (m.keyNameStep place).2.recast f lines encoding) := by
  simp only [keyNameStep, line_recast, giveUp_recast hnumber, openKey_recast hf hnumber,
    enter_recast]
  cases bracketed? (m.line.fromPlace place) with
  | none => rfl
  | some name => cases hminus : Text.after? ['-'] name <;> simp [hminus]

/-- A line of the Windows 3.1 dialect is read alike. -/
theorem windows31Assignment_recast (hf : RegistryStore.Morphism f)
    (hnumber : LineSupply.lineNumber m.lines = LineSupply.lineNumber lines) :
    (m.recast f lines encoding).windows31Assignment =
      (m.windows31Assignment.1, m.windows31Assignment.2.recast f lines encoding) := by
  simp only [windows31Assignment, line_recast, openKey_recast hf hnumber]
  rcases m.openKey (m.line.takeWhile fun c => !isWhiteSpace c) with ⟨opened, m'⟩
  cases opened <;> rfl

/-- The value that is ready is set alike. -/
theorem setStaged_recast (hf : RegistryStore.Morphism f)
    (hnumber : LineSupply.lineNumber m.lines = LineSupply.lineNumber lines) :
    (m.recast f lines encoding).setStaged = m.setStaged.recast f lines encoding := by
  cases hkey : m.key with
  | none => simp [setStaged, recast, hkey]
  | some key =>
      simp only [setStaged, key_recast, hkey, store_recast, valueName_recast, dataType_recast,
        staged_recast, hf.setValue]
      rcases RegistryStore.setValue m.store key m.valueName m.dataType (m.staged.getD [])
        with ⟨answer, store⟩
      cases answer <;> simp [note, recast, hnumber]

/-- Behind it both importers go on in front of the same kind of line. -/
theorem writingStep_recast (hf : RegistryStore.Morphism f)
    (hnumber : LineSupply.lineNumber m.lines = LineSupply.lineNumber lines) (place : Nat) :
    (m.recast f lines encoding).writingStep place =
      ((m.writingStep place).1, (m.writingStep place).2.recast f lines encoding) := by
  simp only [writingStep, setStaged_recast hf hnumber, dialect_recast, enter_recast]
  by_cases hdialect : m.setStaged.dialect = some .windows31 <;> simp [hdialect]

end Store

section Lines

variable [LineSupply ρ] [RegistryStore σ κ] (m : Importer ρ σ κ)

/-- No line is taken for a call of the store. -/
theorem windows31Assignment_lines : m.windows31Assignment.2.lines = m.lines := by
  have hopen := lines_openKey m (m.line.takeWhile fun c => !isWhiteSpace c)
  simp only [windows31Assignment]
  split
  next m' hanswer => rw [← hopen, hanswer]
  next m' hanswer => rw [← hopen, hanswer]

/-- Nor is one taken for the name of a key. -/
theorem keyNameStep_lines (place : Nat) : (m.keyNameStep place).2.lines = m.lines := by
  unfold keyNameStep
  split
  · rfl
  · split
    · rfl
    · exact lines_openKey m _

/-- Nor is one taken to set a value. -/
theorem writingStep_lines (place : Nat) : (m.writingStep place).2.lines = m.lines := by
  unfold writingStep
  dsimp only
  split <;> exact lines_setStaged m

end Lines

section Fetching

variable [LineSupply ρ] [LineSupply ρ'] {R : ρ → ρ' → Prop} (f : σ → τ)
  (encoding : FileEncoding) {lines : ρ'} {m : Importer ρ σ κ}

/-- Alike supplies give the same line, and stay alike. -/
theorem fetch_recast (hR : LineSupply.Alike R) (hlines : R m.lines lines) :
    ∃ rest, R m.fetch.2.lines rest ∧ (m.recast f lines encoding).fetch =
      (m.fetch.1, m.fetch.2.recast f rest encoding) := by
  obtain ⟨rest, hnext, hrest⟩ := hR.next hlines
  refine ⟨rest, ?_⟩
  rcases hanswer : LineSupply.next m.lines with ⟨answer, left⟩
  rw [hanswer] at hnext hrest
  have hnumber := hR.lineNumber hrest
  rcases answer with message | _ | line <;>
    simp_all [fetch, recast]

/-- A list of bytes takes the same lines of both: by the recursion of `continueList`. -/
theorem continueList_recast (hR : LineSupply.Alike R) (ending : Option HexList.Ending)
    (bytes : Bytes) (hlines : R m.lines lines) :
    ∃ rest, R (m.continueList ending bytes).2.lines rest ∧
      (m.recast f lines encoding).continueList ending bytes =
        ((m.continueList ending bytes).1,
          (m.continueList ending bytes).2.recast f rest encoding) := by
  fun_induction continueList m ending bytes generalizing lines with
  | case1 m bytes =>
      refine ⟨lines, hlines, ?_⟩
      rw [continueList, abandon_recast (hR.lineNumber hlines)]
  | case2 m bytes =>
      refine ⟨lines, hlines, ?_⟩
      rw [continueList]
      rfl
  | case3 m bytes e m' hfetch =>
      obtain ⟨rest, hrest, heq⟩ := fetch_recast f encoding hR hlines
      rw [hfetch] at hrest heq
      refine ⟨rest, hrest, ?_⟩
      rw [continueList]
      split <;> simp_all
  | case4 m bytes m' hfetch =>
      obtain ⟨rest, hrest, heq⟩ := fetch_recast f encoding hR hlines
      rw [hfetch] at hrest heq
      refine ⟨rest, hrest, ?_⟩
      rw [continueList]
      split <;> simp_all [abandon_recast (hR.lineNumber hrest)]
  | case5 m bytes m' hfetch hless left hcomment =>
      rename_i ih
      obtain ⟨rest, hrest, heq⟩ := fetch_recast f encoding hR hlines
      rw [hfetch] at hrest heq
      rw [continueList_of_comment heq hcomment]
      exact ih hrest
  | case6 m bytes m' hfetch hless left hlist r =>
      rename_i ih
      obtain ⟨rest, hrest, heq⟩ := fetch_recast f encoding hR hlines
      rw [hfetch] at hrest heq
      rw [continueList_of_line heq (by simpa using hlist)]
      exact ih hrest

/-- The header is read alike. -/
theorem headerStep_recast (hR : LineSupply.Alike R) (hlines : R m.lines lines) :
    ∃ rest, R m.headerStep.2.lines rest ∧ (m.recast f lines encoding).headerStep =
      (m.headerStep.1, m.headerStep.2.recast f rest encoding) := by
  obtain ⟨rest, hrest, heq⟩ := fetch_recast f encoding hR hlines
  refine ⟨rest, ?_⟩
  simp only [headerStep, heq]
  rcases hfetch : m.fetch with ⟨answer, m'⟩
  rw [hfetch] at hrest
  rcases answer with e | _ | _
  · exact ⟨hrest, rfl⟩
  · exact ⟨(lines_of_outside (outside_classify { m' with line := [] })).symm ▸ hrest,
      classify_recast f rest encoding { m' with line := [] }⟩
  · exact ⟨(lines_of_outside m'.outside_classify).symm ▸ hrest, classify_recast f rest encoding m'⟩

/-- A line of a structured file is begun alike. -/
theorem lineStartStep_recast (hR : LineSupply.Alike R) (hlines : R m.lines lines) :
    ∃ rest, R m.lineStartStep.2.lines rest ∧ (m.recast f lines encoding).lineStartStep =
      (m.lineStartStep.1, m.lineStartStep.2.recast f rest encoding) := by
  obtain ⟨rest, hrest, heq⟩ := fetch_recast f encoding hR hlines
  refine ⟨rest, ?_⟩
  simp only [lineStartStep, heq]
  rcases hfetch : m.fetch with ⟨answer, m'⟩
  rw [hfetch] at hrest
  rcases answer with e | _ | _
  · exact ⟨hrest, rfl⟩
  · exact ⟨hrest, rfl⟩
  · exact ⟨(lines_of_outside m'.outside_dispatch).symm ▸ hrest, dispatch_recast f rest encoding m'⟩

end Fetching

section Steps

variable [LineSupply ρ] [LineSupply ρ'] [RegistryStore σ κ] [RegistryStore τ κ]
  {R : ρ → ρ' → Prop} {f : σ → τ} (encoding : FileEncoding) {lines : ρ'} {m : Importer ρ σ κ}

/-- A line of the Windows 3.1 dialect is taken and read alike. -/
theorem windows31Step_recast (hR : LineSupply.Alike R) (hf : RegistryStore.Morphism f)
    (hlines : R m.lines lines) :
    ∃ rest, R m.windows31Step.2.lines rest ∧ (m.recast f lines encoding).windows31Step =
      (m.windows31Step.1, m.windows31Step.2.recast f rest encoding) := by
  obtain ⟨rest, hrest, heq⟩ := fetch_recast f encoding hR hlines
  refine ⟨rest, ?_⟩
  simp only [windows31Step, heq]
  rcases hfetch : m.fetch with ⟨answer, m'⟩
  rw [hfetch] at hrest
  have hnumber := hR.lineNumber hrest
  rcases answer with e | _ | _
  · exact ⟨hrest, rfl⟩
  · exact ⟨hrest, rfl⟩
  · by_cases hroot : m'.line.startsWith classesRootToken
    · simp only [line_recast, hroot, if_true, windows31Assignment_recast hf hnumber, and_true]
      exact (windows31Assignment_lines m').symm ▸ hrest
    · simp only [line_recast, hroot]
      exact ⟨hrest, rfl⟩

/-- A step of an importer and the step of its recast agree. -/
theorem step_recast (hR : LineSupply.Alike R) (hf : RegistryStore.Morphism f)
    (hlines : R m.lines lines) (place : Nat) :
    ∃ rest, R (m.step place).2.lines rest ∧ (m.recast f lines encoding).step place =
      ((m.step place).1, (m.step place).2.recast f rest encoding) := by
  have hnumber := hR.lineNumber hlines
  cases hstate : m.state <;> simp only [step, hstate, state_recast]
  case header => exact headerStep_recast f encoding hR hlines
  case windows31Line => exact windows31Step_recast encoding hR hf hlines
  case lineStart => exact lineStartStep_recast f encoding hR hlines
  case keyName =>
    exact ⟨lines, (keyNameStep_lines m place).symm ▸ hlines, keyNameStep_recast hf hnumber place⟩
  case defaultName => exact ⟨lines, hlines, rfl⟩
  case quotedName =>
    exact ⟨lines, (lines_of_outside (m.outside_quotedNameStep place)).symm ▸ hlines,
      quotedNameStep_recast hnumber place⟩
  case assignment =>
    exact ⟨lines, (lines_of_outside (m.outside_assignmentStep place)).symm ▸ hlines,
      assignmentStep_recast hnumber place⟩
  case typeTag =>
    exact ⟨lines, (lines_of_outside (m.outside_typeTagStep place)).symm ▸ hlines,
      typeTagStep_recast hnumber place⟩
  case stringPayload =>
    exact ⟨lines, (lines_of_outside (m.outside_stringStep place)).symm ▸ hlines,
      stringStep_recast hnumber place⟩
  case dwordPayload =>
    exact ⟨lines, (lines_of_outside (m.outside_dwordStep place)).symm ▸ hlines,
      dwordStep_recast hnumber place⟩
  case hexPayload => exact continueList_recast f encoding hR _ _ hlines
  case writing =>
    exact ⟨lines, (writingStep_lines m place).symm ▸ hlines, writingStep_recast hf hnumber place⟩

/-- The loop of an importer and the loop of its recast agree: by induction on
the number of steps that are left. -/
theorem loop_recast (hR : LineSupply.Alike R) (hf : RegistryStore.Morphism f)
    (hlines : R m.lines lines) (place : Nat) :
    ∃ rest, R (m.loop place).2.lines rest ∧ (m.recast f lines encoding).loop place =
      ((m.loop place).1, (m.loop place).2.recast f rest encoding) := by
  induction hremaining : m.remaining using Nat.strongRecOn generalizing m lines place with
  | ind remaining ih =>
      obtain ⟨rest, hrest, hrecast⟩ := step_recast encoding hR hf hlines place
      rcases hstep : m.step place with ⟨progress, m'⟩
      rw [hstep] at hrest hrecast
      cases progress with
      | proceed next =>
          rw [loop_of_proceed hstep, loop_of_proceed hrecast]
          exact ih m'.remaining (hremaining ▸ remaining_step hstep) hrest next rfl
      | finished =>
          rw [loop_of_finished hstep, loop_of_finished hrecast]
          exact ⟨rest, hrest, rfl⟩
      | failed e =>
          rw [loop_of_failed hstep, loop_of_failed hrecast]
          exact ⟨rest, hrest, rfl⟩

/-- The end of a run and the end of the run of a recast agree. -/
theorem finish_recast (hf : RegistryStore.Morphism f) :
    (m.recast f lines encoding).finish = m.finish.recast f (LineSupply.close lines) encoding := by
  simp only [finish, closeKey_recast hf]
  rfl

/-- **A run of an importer and the run of its recast agree**: they have the same
outcome, and leave importers of which one is a recast of the other. -/
theorem run_recast (hR : LineSupply.Alike R) (hf : RegistryStore.Morphism f)
    (hlines : R m.lines lines) :
    ∃ rest, R m.run.2.lines rest ∧ (m.recast f lines encoding).run =
      (m.run.1, m.run.2.recast f rest encoding) := by
  obtain ⟨rest, hrest, hloop⟩ := loop_recast encoding hR hf hlines 0
  rcases hended : m.loop 0 with ⟨answer, m'⟩
  rw [hended] at hrest hloop
  simp only [run, hended, hloop, finish_recast encoding hf, dialect_recast]
  refine ⟨LineSupply.close rest, ?_, ?_⟩
  · have hclosed : R m'.finish.lines (LineSupply.close rest) := by
      simpa only [finish, lines_closeKey] using hR.close hrest
    cases answer <;> exact hclosed
  · cases answer <;> rfl

end Steps

/-- A run leaves the encoding in the report alone: it would not notice another
one, so it cannot put another one there. -/
theorem encoding_run [LineSupply ρ] [RegistryStore σ κ] (m : Importer ρ σ κ) :
    m.run.2.report.encoding = m.report.encoding := by
  obtain ⟨rest, -, hrun⟩ := run_recast (m := m) m.report.encoding
    LineSupply.alike_eq RegistryStore.morphism_id rfl
  have hsame : m.recast (fun store => store) m.lines m.report.encoding = m := rfl
  rw [hsame] at hrun
  have hended := congrArg Prod.snd hrun
  rw [hended]
  rfl

end Importer

end RegistryText
