import RegistryText.Proofs.Import.Diagnostics
import RegistryText.Proofs.Import.Reruns

/-!
# Later runs

A run lets go of its lines, its line and its key, and ends in one of four states, in which an
importer takes a line (`isRest_loop`).  The importer may be run again, and it may be looked at
between any two steps of the later runs.  At all these moments it is *idle*: it holds nothing, its
store is the one that the first run left, and so is its report, but for the dialect.

`Idle.step` is the reason.  Where a run can end, the next step takes a line, and there is none.  The
one exception is a list of bytes that a failing read cut off: its line is empty by now, so that the
next step reads an empty list and makes it ready to be set.  **But no key is open**, and so the step
behind it calls no store either.  All that later runs can change is the dialect of a file without a
header that can be imported (`runs_succ`, `inert_after_run`).
-/

namespace RegistryText

/-- The states in which a run can end. -/
def ImportState.isRest : ImportState → Bool
  | header | windows31Line | lineStart | hexPayload => true
  | keyName | defaultName | quotedName | assignment | typeTag => false
  | stringPayload | dwordPayload | writing => false

namespace Importer

section Rest

variable {ρ σ κ : Type} [LineSupply ρ] {m m' : Importer ρ σ κ}

theorem isRest_fetch {answer : Except ImportError Bool} (hrest : m.state.isRest = true)
    (hfetch : m.fetch = (answer, m')) : m'.state.isRest = true := by
  rwa [(kept_of_fetch hfetch).1]

/-- A list that does not go on within its line ends at rest. -/
theorem isRest_continueList (hrest : m.state.isRest = true) (ending : Option HexList.Ending)
    (bytes : Bytes) : (∃ next, (m.continueList ending bytes).1 = .proceed next) ∨
      (m.continueList ending bytes).2.state.isRest = true := by
  fun_induction continueList m ending bytes with
  | case1 m bytes | case2 m bytes => exact Or.inl ⟨_, rfl⟩
  | case3 m bytes e m' hfetch => exact Or.inr (isRest_fetch hrest hfetch)
  | case4 m bytes m' hfetch => exact Or.inr rfl
  | case5 m bytes m' hfetch hless rest hcomment ih
  | case6 m bytes m' hfetch hless rest hlist r ih => exact ih (isRest_fetch hrest hfetch)

theorem isRest_headerStep (hrest : m.state.isRest = true) : m.headerStep.2.state.isRest = true := by
  have hclassify : ∀ {m : Importer ρ σ κ}, m.state.isRest = true →
      m.classify.2.state.isRest = true := by
    intro m hrest
    simp only [classify]
    split
    · exact hrest
    · split <;> rfl
  unfold headerStep
  split
  next e m' hfetch => exact isRest_fetch hrest hfetch
  next m' hfetch => exact hclassify (isRest_fetch hrest hfetch)
  next m' hfetch =>
    have hended : m'.state.isRest = true := isRest_fetch hrest hfetch
    exact hclassify hended

variable [RegistryStore σ κ]

/-- A step that does not go on ends at rest. -/
theorem isRest_step (m : Importer ρ σ κ) (place : Nat) :
    (∃ next, (m.step place).1 = .proceed next) ∨ (m.step place).2.state.isRest = true := by
  cases hstate : m.state <;> simp only [step, hstate]
  case header => exact Or.inr (isRest_headerStep (by rw [hstate]; rfl))
  case hexPayload => exact isRest_continueList (by rw [hstate]; rfl) _ _
  case windows31Line =>
    have hrest : m.state.isRest = true := by rw [hstate]; rfl
    unfold windows31Step
    split
    next e m' hfetch => exact Or.inr (isRest_fetch hrest hfetch)
    next m' hfetch => exact Or.inr (isRest_fetch hrest hfetch)
    next m' hfetch =>
      unfold windows31Assignment
      dsimp only
      split
      · split <;> exact Or.inl ⟨_, rfl⟩
      · exact Or.inl ⟨_, rfl⟩
  case lineStart =>
    have hrest : m.state.isRest = true := by rw [hstate]; rfl
    unfold lineStartStep
    split
    next e m' hfetch => exact Or.inr (isRest_fetch hrest hfetch)
    next m' hfetch => exact Or.inr (isRest_fetch hrest hfetch)
    next m' hfetch =>
      simp only [dispatch]
      split <;> exact Or.inl ⟨_, rfl⟩
  all_goals
    left
    simp only [keyNameStep, defaultNameStep, quotedNameStep, assignmentStep, typeTagStep,
      stringStep, dwordStep, writingStep]
    repeat' split
    all_goals exact ⟨_, rfl⟩

/-- **A loop ends at rest**, by induction on the number of steps that are left. -/
theorem isRest_loop (m : Importer ρ σ κ) (place : Nat) :
    (m.loop place).2.state.isRest = true := by
  induction hremaining : m.remaining using Nat.strongRecOn generalizing m place with
  | ind remaining ih =>
      have hrest := m.isRest_step place
      rcases hstep : m.step place with ⟨progress, m'⟩
      rw [hstep] at hrest
      cases progress with
      | proceed next =>
          rw [loop_of_proceed hstep]
          exact ih m'.remaining (hremaining ▸ remaining_step hstep) m' next rfl
      | finished =>
          rw [loop_of_finished hstep]
          simpa using hrest
      | failed e =>
          rw [loop_of_failed hstep]
          simpa using hrest

end Rest

section Idle

variable {σ κ : Type} {first m m' : Importer LineReader σ κ}

/-- The importer holds nothing, and has done nothing since the first run left it as `first`. -/
structure Idle (first m : Importer LineReader σ κ) : Prop where
  lines : m.lines.source = none
  key : m.key = none
  line : m.line = []
  state : m.state.isRest = true ∨ m.state = .writing
  store : m.store = first.store
  report : m.report = { first.report with dialect := m.report.dialect }
  dialect : m.report.dialect = first.report.dialect ∨ m.report.dialect = some .invalid

/-- There is no line to be taken. -/
theorem Idle.fetch (h : Idle first m) : m.fetch = (.ok false, m) := by
  have hnext : LineSupply.next m.lines = (.ok none, m.lines) := LineReader.next_of_closed h.lines
  simp only [Importer.fetch, hnext]

/-- An idle importer may be in any state in which a run can end, or in front of a write. -/
theorem Idle.enter (h : Idle first m) {state : ImportState}
    (hstate : state.isRest = true ∨ state = .writing) (staged : Option Bytes) :
    Idle first { m with staged := staged, state := state } :=
  ⟨h.lines, h.key, h.line, hstate, h.store, h.report, h.dialect⟩

/-- The header that is read in front of no line names an invalid file, and changes nothing else. -/
theorem Idle.headerStep (h : Idle first m) (hstate : m.state = .header) :
    Idle first m.headerStep.2 := by
  rw [headerStep_of_closed h.lines]
  have hrest : m.state.isRest = true := by
    rw [hstate]
    rfl
  have hreport : { m.report with dialect := some Dialect.invalid } =
      { first.report with dialect := some Dialect.invalid } := by
    rw [h.report]
  exact ⟨h.lines, h.key, rfl, Or.inl hrest, h.store, hreport, Or.inr rfl⟩

/-- The list of an empty line is empty, and ready to be set. -/
theorem Idle.hexStep (h : Idle first m) (place : Nat) : m.hexStep place = (.proceed 0, m.stage []) := by
  have hempty : Text.fromPlace [] place = [] := by
    unfold Text.fromPlace Text.dropBytes?
    split <;> rfl
  have hread : HexList.readLine (m.line.fromPlace place) = (some .complete, []) := by
    rw [h.line, hempty]
    exact HexList.readLine_of_stop rfl
  rw [Importer.hexStep, hread, continueList, h.line]
  rfl

variable [RegistryStore σ κ]

/-- A value is set in no key. -/
theorem Idle.writingStep (h : Idle first m) (place : Nat) :
    Idle first (m.writingStep place).2 := by
  have hunset : m.setStaged = { m with staged := none } := by
    simp only [setStaged, h.key]
  unfold Importer.writingStep
  rw [hunset]
  dsimp only
  split
  · exact h.enter (Or.inl rfl) none
  · exact h.enter (Or.inl rfl) none

/-- **A step of an idle importer leaves it idle.** -/
theorem Idle.step (h : Idle first m) (place : Nat) : Idle first (m.step place).2 := by
  have hwhere := h.state
  cases hstate : m.state <;> rw [hstate] at hwhere <;> simp only [Importer.step, hstate]
  case header => exact h.headerStep hstate
  case windows31Line =>
    rw [windows31Step, h.fetch]
    exact h
  case lineStart =>
    rw [lineStartStep, h.fetch]
    exact h
  case hexPayload =>
    rw [h.hexStep]
    exact h.enter (Or.inr rfl) (some [])
  case writing => exact h.writingStep place
  all_goals simp [ImportState.isRest] at hwhere

/-- The end of a run has nothing to let go of. -/
theorem Idle.finish (h : Idle first m) : Idle first m.finish := by
  have hclosed : m.closeKey = { m with valueName := none } := by
    simp only [closeKey, h.key]
  unfold Importer.finish
  rw [hclosed]
  exact ⟨rfl, h.key, rfl, h.state, h.store, h.report, h.dialect⟩

theorem Idle.moves {s s' : Importer LineReader σ κ × Option Nat} (h : Idle first s.1)
    (hmove : Moves s s') : Idle first s'.1 := by
  cases hmove with
  | begins m => exact h
  | @goesOn m m' place next step =>
      have hstep := h.step place
      rwa [step] at hstep
  | @ends m m' place step =>
      have hstep := (h.step place).finish
      rwa [step] at hstep
  | @fails m m' place e step =>
      have hstep := (h.step place).finish
      rwa [step] at hstep

/-- An importer that has run is idle. -/
theorem idle_run (m : Importer LineReader σ κ) : Idle m.run.2 m.run.2 := by
  have hkey : (m.loop 0).2.closeKey.key = none := by
    cases hkey : (m.loop 0).2.key <;> simp [closeKey, hkey]
  have hrest : (m.loop 0).2.finish.state.isRest = true := by
    rw [(finish_kept _).1]
    exact m.isRest_loop 0
  rw [run_snd]
  exact ⟨rfl, hkey, rfl, Or.inl hrest, rfl, rfl, Or.inl rfl⟩

/-- **Behind its first run an importer is idle at every moment.** -/
theorem idle_of_moves {s : Importer LineReader σ κ × Option Nat}
    (hmoves : Relation.ReflTransGen Moves (m.runs 1, none) s) : Idle (m.runs 1) s.1 := by
  induction hmoves with
  | refl => exact m.idle_run
  | tail before move ih => exact ih.moves move

/-- Later runs are made of moves behind the first one. -/
theorem moves_behind_run (m : Importer LineReader σ κ) (n : Nat) :
    Relation.ReflTransGen Moves (m.runs 1, none) (m.runs (n + 1), none) := by
  induction n with
  | zero => exact .refl
  | succ n ih =>
      have hrun := (m.runs (n + 1)).reflTransGen_moves_runs 1
      exact ih.trans hrun

/-- **Later runs call no store and note no problem.** -/
theorem runs_succ (m : Importer LineReader σ κ) (n : Nat) :
    (m.runs (n + 1)).store = m.run.2.store ∧
      ((m.runs (n + 1)).report = m.run.2.report ∨
        (m.runs (n + 1)).report = { m.run.2.report with dialect := some .invalid }) := by
  have hidle := idle_of_moves (m.moves_behind_run n)
  refine ⟨hidle.store, ?_⟩
  rw [hidle.report]
  rcases hidle.dialect with hsame | hinvalid
  · left
    rw [hsame]
    rfl
  · right
    rw [hinvalid]
    rfl

end Idle

end Importer

/-- **A finished importer is inert.**  At every moment behind its first run its store is the one
that this run left, with its log, its open handles and the number of writes that it was asked for;
and so is its report, but for the dialect.  The ends of all later runs are among these moments.  With
a record of its calls the import is the same, and no call is recorded in a later run. -/
theorem inert_after_run (source : Source) (denied : List Text) (refuses : Nat → Bool)
    (options : ImportOptions) {m : Importer LineReader (RefusingStore MemoryStore) KeyHandle}
    (hm : Importer.ofSource source ⟨denied.foldl MemoryStore.deny {}, refuses, 0⟩ options =
      .ok m) :
    (∀ s, Relation.ReflTransGen Importer.Moves (m.runs 1, none) s →
      s.1.store = (m.runs 1).store ∧
        s.1.report = { (m.runs 1).report with dialect := s.1.dialect }) ∧
      (∀ n, Relation.ReflTransGen Importer.Moves (m.runs 1, none) (m.runs (n + 1), none)) ∧
      ∃ recorded : Importer LineReader RecordedMemory KeyHandle,
        Importer.ofSource source ⟨⟨denied.foldl MemoryStore.deny {}, refuses, 0⟩, []⟩ options =
          .ok recorded ∧
        (∀ n, (recorded.runs n).store.behind = (m.runs n).store) ∧
        ∀ s, Relation.ReflTransGen Importer.Moves (recorded.runs 1, none) s →
          s.1.store.calls = (recorded.runs 1).store.calls := by
  obtain ⟨recorded, hrecorded, rfl⟩ := Importer.exists_recording hm
  refine ⟨?_, Importer.moves_behind_run _, recorded, hrecorded, ?_, ?_⟩
  · intro s hmoves
    have hidle := Importer.idle_of_moves hmoves
    have htells := (Importer.tellsDialect_ofSource hm).reflTransGen
      ((Importer.reflTransGen_moves_runs _ 1).trans hmoves)
    exact ⟨hidle.store, htells ▸ hidle.report⟩
  · intro n
    rw [Importer.runs_mapStore RecordingStore.morphism_behind]
    rfl
  · intro s hmoves
    rw [(Importer.idle_of_moves hmoves).store]

/-- The lines in front of a failure: two keys, a value, and a list of bytes that goes on. -/
def cutOffText : Text :=
  "REGEDIT4\n[HKCU\\B]\n[HKCU\\A]\n@=\"a\"\n@=hex:01,\\\n".toList

/-- A store that denies one of the keys and refuses the first write. -/
def cautiousStore : RefusingStore MemoryStore :=
  ⟨["HKCU\\B".toList].foldl MemoryStore.deny {}, fun i => i == 0, 0⟩

/-- A new importer of these lines into this store. -/
def importerOfCutOff : Importer LineReader (RefusingStore MemoryStore) KeyHandle :=
  Importer.ofFirstBytes 0x52 0x45
    ⟨[.data ((Utf8.encode cutOffText).drop 2), .failure "broken".toList], none⟩ cautiousStore {}

/-- The first run ends within the list, with two problems noted; three more runs change neither the
store nor what is noted. -/
theorem inert_after_run_cutOff :
    Importer.ofSource ⟨[.data (Utf8.encode cutOffText), .failure "broken".toList], none⟩
        cautiousStore {} = .ok importerOfCutOff ∧
      (importerOfCutOff.runs 1).state = .hexPayload ∧
      (importerOfCutOff.runs 1).report.diagnostics.length = 2 ∧
      (importerOfCutOff.runs 4).state = .lineStart ∧
      (importerOfCutOff.runs 4).store = (importerOfCutOff.runs 1).store ∧
      (importerOfCutOff.runs 4).report.diagnostics =
        (importerOfCutOff.runs 1).report.diagnostics := by
  have hm : Importer.ofSource
      ⟨[.data (Utf8.encode cutOffText), .failure "broken".toList], none⟩ cautiousStore {} =
        .ok importerOfCutOff := rfl
  obtain ⟨hinert, hlater, -⟩ :=
    inert_after_run _ ["HKCU\\B".toList] (fun i => i == 0) {} hm
  obtain ⟨hstore, hreport⟩ := hinert _ (hlater 3)
  refine ⟨hm, by decide +kernel, by decide +kernel, by decide +kernel, hstore, ?_⟩
  rw [hreport]

end RegistryText
