import RegistryText.Proofs.Import.LaterRuns

/-!
# Staged data

A step that has read the payload of a value stages its data, and the step behind it sets the
value.  **In front of a write data is staged, and at no other moment**
(`StagesToWrite.isSome_iff`), so a write never has to do without data of its own.

A step in front of anything but a write keeps what is staged, drops it, or reads a payload and
stages its data (`Staging`).  Which data that is depends on the payload alone (`ReadsData`).
A write takes what is staged away.  By induction over the steps and the runs, none of what is
staged ever reaches another value: not when the write is refused, not when a value is given up,
and not when the lines end or break off within it.

A run lets go of what is staged, and it never ends in front of a write (`isRest_step`); so the
state in which it ends, and in which the next run begins, agrees with what is staged as well.
-/

namespace RegistryText

namespace Importer

variable {ρ σ κ : Type} {m m' : Importer ρ σ κ} {place : Nat}

/-! ### What leaves the staged data alone -/

/-- Nothing is done to what is staged on the way from `m` to `m'`, and the way leads in front of
no write. -/
structure LeavesStaged (m m' : Importer ρ σ κ) : Prop where
  state : m.state ≠ .writing → m'.state ≠ .writing
  staged : m'.staged = m.staged

/-- Two ways that leave what is staged alone make up one that does. -/
theorem LeavesStaged.trans {m'' : Importer ρ σ κ} (h : LeavesStaged m m')
    (h' : LeavesStaged m' m'') : LeavesStaged m m'' :=
  ⟨fun hm => h'.state (h.state hm), h'.staged.trans h.staged⟩

/-- The header classification stages nothing. -/
theorem leavesStaged_classify (m : Importer ρ σ κ) : LeavesStaged m m.classify.2 := by
  simp only [classify]
  split
  · exact ⟨id, rfl⟩
  · split <;> exact ⟨fun _ => by rintro ⟨⟩, rfl⟩

/-- The first character of a line leads in front of a name at most. -/
theorem leavesStaged_dispatch (m : Importer ρ σ κ) : LeavesStaged m m.dispatch.2 := by
  simp only [dispatch]
  split
  · exact ⟨fun _ => by rintro ⟨⟩, rfl⟩
  · exact ⟨fun _ => by rintro ⟨⟩, rfl⟩
  · exact ⟨fun _ => by rintro ⟨⟩, rfl⟩
  · exact ⟨id, rfl⟩

section Lines

variable [LineSupply ρ]

/-- A fetched line, or a failed read, stages nothing. -/
theorem leavesStaged_fetch {answer : Except ImportError Bool} (h : m.fetch = (answer, m')) :
    LeavesStaged m m' := by
  unfold fetch at h
  split at h <;> cases h <;> exact ⟨id, rfl⟩

/-- The lines that continue a list are gathered before anything is staged. -/
theorem leavesStaged_gather (m : Importer ρ σ κ) (bytes : Bytes) :
    LeavesStaged m (m.gather bytes).2 := by
  fun_induction gather m bytes with
  | case1 m bytes e m' hfetch | case2 m bytes m' hfetch
  | case4 m bytes m' hfetch | case5 m bytes m' hfetch => exact leavesStaged_fetch hfetch
  | case3 m bytes m' hfetch hless hcomment ih | case6 m bytes m' hfetch hless hlist more hread ih =>
      exact (leavesStaged_fetch hfetch).trans ih

/-- A step in the header stages nothing, even if it finds no line. -/
theorem leavesStaged_headerStep (m : Importer ρ σ κ) : LeavesStaged m m.headerStep.2 := by
  unfold headerStep
  split
  next e m' hfetch => exact leavesStaged_fetch hfetch
  next m' hfetch => exact (leavesStaged_fetch hfetch).trans (leavesStaged_classify m')
  next m' hfetch =>
    have hempty : LeavesStaged m' { m' with line := [] } := ⟨id, rfl⟩
    exact (leavesStaged_fetch hfetch).trans (hempty.trans (leavesStaged_classify _))

/-- A step at the start of a line stages nothing. -/
theorem leavesStaged_lineStartStep (m : Importer ρ σ κ) : LeavesStaged m m.lineStartStep.2 := by
  unfold lineStartStep
  split
  next e m' hfetch => exact leavesStaged_fetch hfetch
  next m' hfetch => exact leavesStaged_fetch hfetch
  next m' hfetch => exact (leavesStaged_fetch hfetch).trans (leavesStaged_dispatch m')

/-- A line that is given up stages nothing. -/
theorem leavesStaged_giveUp (m : Importer ρ σ κ) (kind : DiagnosticKind) :
    LeavesStaged m (m.giveUp kind) :=
  ⟨fun _ => by rintro ⟨⟩, rfl⟩

/-- The name of a value is read before anything is staged, closed or not. -/
theorem leavesStaged_quotedNameStep (m : Importer ρ σ κ) (place : Nat) :
    LeavesStaged m (m.quotedNameStep place).2 := by
  unfold quotedNameStep
  dsimp only
  split <;> exact ⟨fun _ => by rintro ⟨⟩, rfl⟩

/-- The equals sign leads in front of the type of its value at most. -/
theorem leavesStaged_assignmentStep (m : Importer ρ σ κ) (place : Nat) :
    LeavesStaged m (m.assignmentStep place).2 := by
  unfold assignmentStep
  split
  · exact leavesStaged_giveUp m _
  · dsimp only
    split <;> exact ⟨fun _ => by rintro ⟨⟩, rfl⟩

/-- A type tag leads in front of its payload, never in front of a write. -/
theorem leavesStaged_typeTagStep (m : Importer ρ σ κ) (place : Nat) :
    LeavesStaged m (m.typeTagStep place).2 := by
  unfold typeTagStep
  split
  · exact leavesStaged_giveUp m _
  next tag payload htag =>
    refine ⟨fun _ => ?_, rfl⟩
    show payloadState tag.payload ≠ .writing
    cases tag.payload <;> rintro ⟨⟩

end Lines

/-! ### What a step does -/

section Steps

variable [LineSupply ρ]

/-- The data of the payload at a place of the current line, and of the lines that continue it.
In front of a line of the Windows 3.1 dialect it is the string of that line. -/
inductive ReadsData (m : Importer ρ σ κ) (place : Nat) : Bytes → Prop
  | string {s : Escaped.Unescaped} (state : m.state = .stringPayload)
      (read : Escaped.read? (m.line.fromPlace place) = some s)
      (behind : s.rest.skipBlanks.isEmptyOrComment = true) :
      ReadsData m place (stringData s.text)
  | dword {value : UInt32} (state : m.state = .dwordPayload)
      (read : Dword.read? (m.line.fromPlace place) = some value) :
      ReadsData m place (Dword.bytes value)
  | list {bytes : Bytes} (state : m.state = .hexPayload)
      (read : HexList.readLine (m.line.fromPlace place) = (some .complete, bytes)) :
      ReadsData m place bytes
  | continuedList {first bytes : Bytes} {m' : Importer ρ σ κ} (state : m.state = .hexPayload)
      (read : HexList.readLine (m.line.fromPlace place) = (some .continued, first))
      (more : m.gather first = (.complete bytes, m')) : ReadsData m place bytes
  | windows31 {m' : Importer ρ σ κ} (state : m.state = .windows31Line)
      (fetch : m.fetch = (.ok true, m')) (token : m'.line.startsWith classesRootToken = true) :
      ReadsData m place
        (stringData (windows31Value (m'.line.dropWhile fun c => !isWhiteSpace c)))

/-- What a step in front of anything but a write does to the data that is staged. -/
inductive Staging (m : Importer ρ σ κ) (place : Nat) (m' : Importer ρ σ κ) : Prop
  | leaves (h : LeavesStaged m m')
  | drops (state : m'.state ≠ .writing) (staged : m'.staged = none)
  | stages {data : Bytes} (state : m'.state = .writing) (staged : m'.staged = some data)
      (reads : m.ReadsData place data)

/-- A value that is abandoned drops its data. -/
theorem staging_abandon (m m' : Importer ρ σ κ) (place : Nat) (kind : DiagnosticKind) :
    Staging m place (m'.abandon kind) :=
  .drops (by rintro ⟨⟩) rfl

/-- A payload that has been read stages its data. -/
theorem staging_stage (m' : Importer ρ σ κ) {data : Bytes}
    (h : m.ReadsData place data) : Staging m place (m'.stage data) :=
  .stages rfl rfl h

/-- A string stages its data, if only blanks or a comment stand behind it. -/
theorem staging_stringStep (hstate : m.state = .stringPayload) :
    Staging m place (m.stringStep place).2 := by
  unfold stringStep
  split
  · exact staging_abandon m m place _
  next s hread =>
    dsimp only
    split
    next hbehind => exact staging_stage _ (.string hstate hread hbehind)
    · exact staging_abandon m _ place _

/-- A number stages its four bytes, low byte first. -/
theorem staging_dwordStep (hstate : m.state = .dwordPayload) :
    Staging m place (m.dwordStep place).2 := by
  unfold dwordStep
  split
  · exact staging_abandon m m place _
  next value hread => exact staging_stage m (.dword hstate hread)

/-- A list stages its bytes once it is complete, on its line or on those that continue it.  If a
read fails on the way nothing is staged. -/
theorem staging_hexStep (hstate : m.state = .hexPayload) :
    Staging m place (m.hexStep place).2 := by
  rcases hread : HexList.readLine (m.line.fromPlace place) with ⟨_ | _ | _, first⟩ <;>
    simp only [hexStep, hread]
  · rw [continueList]
    exact staging_abandon m m place _
  · rw [continueList]
    exact staging_stage m (.list hstate hread)
  · rw [continueList_continued]
    rcases hmore : m.gather first with ⟨ending, m'⟩
    cases ending with
    | complete bytes => exact staging_stage m' (.continuedList hstate hread hmore)
    | malformed | missing => exact staging_abandon m m' place _
    | failed e =>
        have hleaves := leavesStaged_gather m first
        rw [hmore] at hleaves
        exact .leaves hleaves

variable [RegistryStore σ κ]

/-- A key that is opened, and one that is closed for it, take nothing of what is staged. -/
theorem leavesStaged_openKey (m : Importer ρ σ κ) (path : Text) :
    LeavesStaged m (m.openKey path).2 := by
  refine ⟨fun hstate => (state_openKey m path).symm ▸ hstate, ?_⟩
  have hclosed : m.closeKey.staged = m.staged := by
    unfold closeKey
    split <;> rfl
  simp only [openKey]
  split <;> exact hclosed

/-- The path of a key stages nothing, whatever becomes of the key. -/
theorem leavesStaged_keyNameStep (m : Importer ρ σ κ) (place : Nat) :
    LeavesStaged m (m.keyNameStep place).2 := by
  unfold keyNameStep
  split
  · exact leavesStaged_giveUp m _
  · split
    · exact leavesStaged_giveUp m _
    · exact ⟨fun _ => by rintro ⟨⟩, (leavesStaged_openKey m _).staged⟩

/-- A line of the Windows 3.1 dialect stages its string, unless its key is refused. -/
theorem staging_windows31Step (hstate : m.state = .windows31Line) :
    Staging m place m.windows31Step.2 := by
  unfold windows31Step
  split
  next e m' hfetch => exact .leaves (leavesStaged_fetch hfetch)
  next m' hfetch => exact .leaves (leavesStaged_fetch hfetch)
  next m' hfetch =>
    split
    next htoken =>
      have hopen := leavesStaged_openKey m' (m'.line.takeWhile fun c => !isWhiteSpace c)
      unfold windows31Assignment
      dsimp only
      split
      next m'' hrefused =>
        rw [hrefused] at hopen
        exact .leaves ((leavesStaged_fetch hfetch).trans hopen)
      · exact .stages rfl rfl (.windows31 hstate hfetch htoken)
    · exact .leaves (leavesStaged_fetch hfetch)

/-- **What a step does to the data that is staged.** -/
theorem staging_step (hstate : m.state ≠ .writing) (place : Nat) :
    Staging m place (m.step place).2 := by
  cases hcase : m.state <;> simp only [step, hcase]
  case header => exact .leaves m.leavesStaged_headerStep
  case windows31Line => exact staging_windows31Step hcase
  case lineStart => exact .leaves m.leavesStaged_lineStartStep
  case keyName => exact .leaves (m.leavesStaged_keyNameStep place)
  case defaultName => exact .leaves ⟨fun _ => by rintro ⟨⟩, rfl⟩
  case quotedName => exact .leaves (m.leavesStaged_quotedNameStep place)
  case assignment => exact .leaves (m.leavesStaged_assignmentStep place)
  case typeTag => exact .leaves (m.leavesStaged_typeTagStep place)
  case stringPayload => exact staging_stringStep hcase
  case dwordPayload => exact staging_dwordStep hcase
  case hexPayload => exact staging_hexStep hcase
  case writing => exact absurd hcase hstate

/-- A write is made with the data that is staged, and goes on in front of the next line. -/
theorem step_of_staged (hstate : m.state = .writing) {data : Bytes} (hstaged : m.staged = some data)
    (place : Nat) : m.step place = (.proceed place,
      (Importer.write { m with staged := none } ⟨m.valueName, m.dataType, data⟩).enter m.front) := by
  have hwritten : m.setStaged =
      Importer.write { m with staged := none } ⟨m.valueName, m.dataType, data⟩ := by
    rw [setStaged_eq, hstaged, Option.getD_some]
  rw [← hwritten]
  simp only [step, hstate, writingStep, front, dialect_setStaged]
  split <;> rfl

/-- A write leaves what is staged as it is, whatever the store makes of it. -/
theorem staged_write (m : Importer ρ σ κ) (w : KeyWrite) : (m.write w).staged = m.staged := by
  unfold write
  split
  · rfl
  · split <;> rfl

/-! ### Every moment -/

/-- Data is staged just in front of a write. -/
def StagedForWrite (m : Importer ρ σ κ) : Prop :=
  m.staged.isSome = true ↔ m.state = .writing

omit [LineSupply ρ] [RegistryStore σ κ] in
/-- Nothing is staged but in front of a write. -/
theorem StagedForWrite.staged_eq_none (h : m.StagedForWrite) (hstate : m.state ≠ .writing) :
    m.staged = none :=
  Option.not_isSome_iff_eq_none.mp (mt h.mp hstate)

omit [RegistryStore σ κ] in
/-- However a step in front of anything but a write treats what is staged, data is staged behind it
just if a write is next. -/
theorem Staging.stagedForWrite (h : Staging m place m') (hm : m.StagedForWrite)
    (hstate : m.state ≠ .writing) : m'.StagedForWrite := by
  cases h with
  | leaves h =>
      have hnone : m'.staged = none := h.staged.trans (hm.staged_eq_none hstate)
      simp [StagedForWrite, hnone, h.state hstate]
  | drops state staged => simp [StagedForWrite, staged, state]
  | stages state staged reads => simp [StagedForWrite, staged, state]

/-- A write is made with the data that is staged, and leaves nothing staged. -/
theorem StagedForWrite.writes (h : m.StagedForWrite) (hstate : m.state = .writing)
    (place : Nat) : (m.step place).2.staged = none ∧ ∃ data, m.staged = some data ∧
      m.step place = (.proceed place,
        (Importer.write { m with staged := none } ⟨m.valueName, m.dataType, data⟩).enter
          m.front) := by
  obtain ⟨data, hstaged⟩ := Option.isSome_iff_exists.mp (h.mpr hstate)
  have hstep := step_of_staged hstate hstaged place
  refine ⟨?_, data, hstaged, hstep⟩
  rw [hstep]
  exact staged_write _ _

/-- **A step keeps data staged just in front of a write.** -/
theorem StagedForWrite.step (h : m.StagedForWrite) (place : Nat) :
    (m.step place).2.StagedForWrite := by
  by_cases hstate : m.state = .writing
  · -- What was staged is gone, and the next state is one in front of a line.
    obtain ⟨hnone, data, -, hstep⟩ := h.writes hstate place
    have hfront : (m.step place).2.state ≠ .writing := by
      rw [hstep]
      show m.front ≠ .writing
      unfold front
      split <;> rintro ⟨⟩
    simp [StagedForWrite, hnone, hfront]
  · exact (staging_step hstate place).stagedForWrite h hstate

/-- What is staged behind a step is what this step has read. -/
theorem StagedForWrite.reads (h : m.StagedForWrite) {data : Bytes}
    (hdata : (m.step place).2.staged = some data) :
    m.staged = none ∧ m.ReadsData place data := by
  have hstate : m.state ≠ .writing := by
    intro hwriting
    rw [(h.writes hwriting place).1] at hdata
    cases hdata
  refine ⟨h.staged_eq_none hstate, ?_⟩
  cases staging_step hstate place with
  | leaves hleaves =>
      rw [hleaves.staged, h.staged_eq_none hstate] at hdata
      cases hdata
  | drops state staged =>
      rw [staged] at hdata
      cases hdata
  | stages state staged reads =>
      rw [staged] at hdata
      cases hdata
      exact reads

omit [LineSupply ρ] [RegistryStore σ κ] in
/-- Where a run can end there is no write ahead, and nothing need be staged. -/
theorem stagedForWrite_of_isRest (hrest : m.state.isRest = true) (hnone : m.staged = none) :
    m.StagedForWrite := by
  have hstate : m.state ≠ .writing := by
    intro hwriting
    rw [hwriting] at hrest
    cases hrest
  simp [StagedForWrite, hnone, hstate]

/-- The end of a run lets go of what is staged, in a state in front of no write. -/
theorem stagedForWrite_finish (hends : ∀ next, (m.step place).1 ≠ .proceed next) :
    (m.step place).2.finish.StagedForWrite := by
  rcases m.isRest_step place with ⟨next, hnext⟩ | hrest
  · exact absurd hnext (hends next)
  · have hended : (m.step place).2.finish.state.isRest = true := by
      rw [(finish_kept _).1]
      exact hrest
    exact stagedForWrite_of_isRest hended rfl

/-- From each moment to the next, data stays staged just in front of a write. -/
theorem StagedForWrite.moves {s s' : Importer ρ σ κ × Option Nat} (h : s.1.StagedForWrite)
    (hmove : Moves s s') : s'.1.StagedForWrite := by
  cases hmove with
  | begins m => exact h
  | @goesOn m m' place next step =>
      have hstep := h.step place
      rwa [step] at hstep
  | @ends m m' place step | @fails m m' place e step =>
      have hended : (m.step place).2.finish.StagedForWrite :=
        stagedForWrite_finish (by rw [step]; rintro next ⟨⟩)
      rwa [step] at hended

/-- Behind its runs an importer holds nothing of a value, and no key. -/
structure Released (m : Importer ρ σ κ) : Prop where
  staged : m.staged = none
  valueName : m.valueName = none
  key : m.key = none

/-- The end of a run lets go of the value and of the key. -/
theorem released_finish (m : Importer ρ σ κ) : m.finish.Released := by
  have hclosed : m.closeKey.valueName = none ∧ m.closeKey.key = none := by
    unfold closeKey
    split
    next hkey => exact ⟨rfl, hkey⟩
    · exact ⟨rfl, rfl⟩
  exact ⟨rfl, hclosed.1, hclosed.2⟩

/-- Behind any number of runs nothing of a value is held. -/
theorem Released.runs (h : m.Released) (n : Nat) : (m.runs n).Released := by
  cases n with
  | zero => exact h
  | succ n =>
      rw [Importer.runs, run_snd]
      exact released_finish _

/-- How an importer that begins as `m₀` stages data, at every moment of its runs. -/
structure StagesToWrite (m₀ : Importer ρ σ κ) : Prop where
  /-- Data is staged in front of a write, and at no other moment. -/
  isSome_iff : ∀ {s}, Relation.ReflTransGen Moves (m₀, none) s →
    (s.1.staged.isSome = true ↔ s.1.state = .writing)
  /-- So it is behind the last step of a run, before the run lets go of anything. -/
  isSome_step_iff : ∀ {m place}, Relation.ReflTransGen Moves (m₀, none) (m, some place) →
    ((m.step place).2.staged.isSome = true ↔ (m.step place).2.state = .writing)
  /-- What is staged behind a step is what this step has read, and nothing was staged before. -/
  reads : ∀ {m place data}, Relation.ReflTransGen Moves (m₀, none) (m, some place) →
    (m.step place).2.staged = some data → m.staged = none ∧ m.ReadsData place data
  /-- A write sets the data that is staged, and leaves nothing staged. -/
  writes : ∀ {m place}, Relation.ReflTransGen Moves (m₀, none) (m, some place) →
    m.state = .writing → (m.step place).2.staged = none ∧ ∃ data, m.staged = some data ∧
      m.step place = (.proceed place,
        (Importer.write { m with staged := none } ⟨m.valueName, m.dataType, data⟩).enter m.front)
  runs : ∀ n, (m₀.runs n).Released

/-- **An importer that has made no step yet stages data for writes only.** -/
theorem Released.stagesToWrite {m₀ : Importer ρ σ κ} (h : m₀.Released)
    (hstate : m₀.state = .header) : m₀.StagesToWrite := by
  have hmoments : ∀ {s}, Relation.ReflTransGen Moves (m₀, none) s → s.1.StagedForWrite := by
    intro s hmoves
    induction hmoves with
    | refl => exact stagedForWrite_of_isRest (by rw [hstate]; rfl) h.staged
    | tail before move ih => exact ih.moves move
  exact {
    isSome_iff := hmoments
    isSome_step_iff := fun hmoves => (hmoments hmoves).step _
    reads := fun hmoves => (hmoments hmoves).reads
    writes := fun hmoves hwriting => (hmoments hmoves).writes hwriting _
    runs := h.runs }

end Steps

end Importer

/-- **Data is staged just in front of the write that sets it**, at every moment of any number of
runs over any source into any store. -/
theorem stagesToWrite_ofSource {σ κ : Type} [RegistryStore σ κ] {source : Source} {store : σ}
    {options : ImportOptions} {m₀ : Importer LineReader σ κ}
    (hm₀ : Importer.ofSource source store options = .ok m₀) : m₀.StagesToWrite := by
  obtain ⟨first, second, rest, rfl⟩ := Importer.exists_ofFirstBytes hm₀
  exact Importer.Released.stagesToWrite ⟨rfl, rfl, rfl⟩ rfl

/-- A run that ends within a list of bytes lets go of its first byte.  The next run begins in
front of the rest of the list, of which nothing is left, and stages no byte. -/
theorem stagesToWrite_ofSource_cutOff :
    Importer.ofSource ⟨[.data (Utf8.encode cutOffText), .failure "broken".toList], none⟩
        cautiousStore {} = .ok importerOfCutOff ∧
      (importerOfCutOff.runs 1).state = .hexPayload ∧
      (importerOfCutOff.runs 1).Released ∧
      ((importerOfCutOff.runs 1).step 0).2.state = .writing ∧
      ((importerOfCutOff.runs 1).step 0).2.staged = some [] ∧
      (importerOfCutOff.runs 1).ReadsData 0 [] := by
  have hm₀ : Importer.ofSource
      ⟨[.data (Utf8.encode cutOffText), .failure "broken".toList], none⟩ cautiousStore {} =
        .ok importerOfCutOff := rfl
  have hmoves : Relation.ReflTransGen Importer.Moves (importerOfCutOff, none)
      (importerOfCutOff.runs 1, some 0) :=
    (importerOfCutOff.reflTransGen_moves_runs 1).tail (.begins _)
  have hstaged : ((importerOfCutOff.runs 1).step 0).2.staged = some [] := by decide +kernel
  have hstages := stagesToWrite_ofSource hm₀
  exact ⟨hm₀, by decide +kernel, hstages.runs 1,
    (hstages.isSome_step_iff hmoves).mp (by rw [hstaged]; rfl), hstaged,
    (hstages.reads hmoves hstaged).2⟩

end RegistryText
