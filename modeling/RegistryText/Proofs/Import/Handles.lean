import RegistryText.Proofs.Import.Recasting
import RegistryText.Proofs.Store.Calls

/-!
# The open key of an import

An import holds at most one key.  It closes the key that it holds before it
asks for another one, sets values of the key that it holds only, and closes it
at the end of every run, whatever the outcome.

`KeptByCalls` is what a property of a store and the key held must be for this:
it must hold again behind each of the four calls, made as the import makes it.
**Every such property is kept by a step and by a run**, for any store
(`step_keeps`, `run_keeps`), and behind a run no key is held.  For a store in
memory this gives the shape of its log (`handles_runs`).
-/

namespace RegistryText

/-- A property of a store and the key held that outlasts the calls of an
import. -/
structure KeptByCalls {σ κ : Type} [RegistryStore σ κ] (Holds : σ → Option κ → Prop) : Prop where
  opened : ∀ {store store' : σ} {root : RootKey} {path : Text} {key : κ}, Holds store none →
    RegistryStore.openKey store root path = (.ok key, store') → Holds store' (some key)
  refused : ∀ {store store' : σ} {root : RootKey} {path : Text} {cause : StoreError},
    Holds store none → RegistryStore.openKey store root path = (.error cause, store') →
      Holds store' none
  closed : ∀ {store : σ} {key : κ}, Holds store (some key) →
    Holds (RegistryStore.closeKey store key) none
  set : ∀ {store : σ} {key : κ} (name : Option Text) (type : ValueType) (data : Bytes),
    Holds store (some key) → Holds (RegistryStore.setValue store key name type data).2 (some key)

namespace Importer

variable {ρ σ κ : Type}

section Fetching

variable {Holds : σ → Option κ → Prop}

/-- Steps that leave the outside alone keep everything. -/
theorem keeps_of_outside {m m' : Importer ρ σ κ} (h : Holds m.store m.key)
    (heq : m'.outside = m.outside) : Holds m'.store m'.key := by
  rwa [store_of_outside heq, key_of_outside heq]

variable [LineSupply ρ]

/-- A line is fetched without a call. -/
theorem fetch_keeps {m : Importer ρ σ κ} (h : Holds m.store m.key) :
    Holds m.fetch.2.store m.fetch.2.key := by
  unfold fetch
  split <;> exact h

/-- The header asks the store for nothing. -/
theorem headerStep_keeps {m : Importer ρ σ κ} (h : Holds m.store m.key) :
    Holds m.headerStep.2.store m.headerStep.2.key := by
  have hfetch := fetch_keeps h
  unfold headerStep
  split
  next e m' heq => rwa [heq] at hfetch
  next m' heq =>
    rw [heq] at hfetch
    exact keeps_of_outside hfetch m'.outside_classify
  next m' heq =>
    rw [heq] at hfetch
    exact keeps_of_outside (m := { m' with line := [] }) hfetch (outside_classify _)

/-- Nor does the start of a line. -/
theorem lineStartStep_keeps {m : Importer ρ σ κ} (h : Holds m.store m.key) :
    Holds m.lineStartStep.2.store m.lineStartStep.2.key := by
  have hfetch := fetch_keeps h
  unfold lineStartStep
  split
  next e m' heq => rwa [heq] at hfetch
  next m' heq => rwa [heq] at hfetch
  next m' heq =>
    rw [heq] at hfetch
    exact keeps_of_outside hfetch m'.outside_dispatch

/-- A list of bytes is read through all its lines, or given up, without a
call. -/
theorem continueList_keeps {m : Importer ρ σ κ} (h : Holds m.store m.key)
    (ending : Option HexList.Ending) (bytes : Bytes) :
    Holds (m.continueList ending bytes).2.store (m.continueList ending bytes).2.key := by
  have hkept : ∀ {m m' : Importer ρ σ κ} {result : Except ImportError Bool},
      Holds m.store m.key → m.fetch = (result, m') → Holds m'.store m'.key := by
    intro m m' result hm hfetch
    have hfetched := fetch_keeps hm
    rwa [hfetch] at hfetched
  fun_induction continueList m ending bytes with
  | case1 m bytes => exact h
  | case2 m bytes => exact h
  | case3 m bytes e m' hfetch => exact hkept h hfetch
  | case4 m bytes m' hfetch =>
      have hended := hkept h hfetch
      exact hended
  | case5 m bytes m' hfetch hless rest hcomment ih => exact ih (hkept h hfetch)
  | case6 m bytes m' hfetch hless rest hlist r ih => exact ih (hkept h hfetch)

end Fetching

section Keeps

variable [RegistryStore σ κ] {Holds : σ → Option κ → Prop}

/-- A key that is closed is given up together with its handle. -/
theorem closeKey_keeps (hcalls : KeptByCalls Holds) {m : Importer ρ σ κ}
    (h : Holds m.store m.key) : Holds m.closeKey.store none ∧ m.closeKey.key = none := by
  unfold closeKey
  split
  next hkey => exact ⟨hkey ▸ h, hkey⟩
  next key hkey =>
    rw [hkey] at h
    exact ⟨hcalls.closed h, rfl⟩

variable [LineSupply ρ]

/-- The key held is closed before another one is asked for. -/
theorem openKey_keeps (hcalls : KeptByCalls Holds) {m : Importer ρ σ κ}
    (h : Holds m.store m.key) (path : Text) :
    Holds (m.openKey path).2.store (m.openKey path).2.key := by
  obtain ⟨hclosed, hkey⟩ := closeKey_keeps hcalls h
  unfold openKey
  cases hroot : RegistryStore.resolveRoot (κ := κ) m.closeKey.store path with
  | none => simpa [requestKey, hroot, note, hkey] using hclosed
  | some found =>
      obtain ⟨root, below⟩ := found
      rcases hopen : RegistryStore.openKey m.closeKey.store root below with ⟨answer, store⟩
      cases answer with
      | error cause =>
          simpa [requestKey, hroot, hopen, note, hkey] using hcalls.refused hclosed hopen
      | ok key => simpa [requestKey, hroot, hopen] using hcalls.opened hclosed hopen

/-- A value is set through the key held, or not at all. -/
theorem setStaged_keeps (hcalls : KeptByCalls Holds) {m : Importer ρ σ κ}
    (h : Holds m.store m.key) : Holds m.setStaged.store m.setStaged.key := by
  unfold setStaged
  dsimp only
  split
  · exact h
  next key hkey =>
    rw [hkey] at h
    have hset := hcalls.set m.valueName m.dataType (m.staged.getD []) h
    split
    next store heq => simpa [heq, hkey] using hset
    next cause store heq => simpa [heq, hkey, note] using hset

/-- A line of the Windows 3.1 dialect asks for its key alone. -/
theorem windows31Assignment_keeps (hcalls : KeptByCalls Holds) {m : Importer ρ σ κ}
    (h : Holds m.store m.key) :
    Holds m.windows31Assignment.2.store m.windows31Assignment.2.key := by
  have hopen := openKey_keeps hcalls h (m.line.takeWhile fun c => !isWhiteSpace c)
  unfold windows31Assignment
  dsimp only
  split
  next m' heq => rwa [heq] at hopen
  next m' heq => rwa [heq] at hopen

/-- So does the step that takes the line. -/
theorem windows31Step_keeps (hcalls : KeptByCalls Holds) {m : Importer ρ σ κ}
    (h : Holds m.store m.key) : Holds m.windows31Step.2.store m.windows31Step.2.key := by
  have hfetch := fetch_keeps h
  unfold windows31Step
  split
  next e m' heq => rwa [heq] at hfetch
  next m' heq => rwa [heq] at hfetch
  next m' heq =>
    rw [heq] at hfetch
    split
    · exact windows31Assignment_keeps hcalls hfetch
    · exact hfetch

/-- The path of a key closes the last one and asks for the next. -/
theorem keyNameStep_keeps (hcalls : KeptByCalls Holds) {m : Importer ρ σ κ}
    (h : Holds m.store m.key) (place : Nat) :
    Holds (m.keyNameStep place).2.store (m.keyNameStep place).2.key := by
  unfold keyNameStep
  split
  · exact h
  · split
    · exact h
    · exact openKey_keeps hcalls h _

/-- A write leaves its key open, refused or not. -/
theorem writingStep_keeps (hcalls : KeptByCalls Holds) {m : Importer ρ σ κ}
    (h : Holds m.store m.key) (place : Nat) :
    Holds (m.writingStep place).2.store (m.writingStep place).2.key := by
  unfold writingStep
  dsimp only
  split <;> exact setStaged_keeps hcalls h

/-- A step keeps what outlasts the calls. -/
theorem step_keeps (hcalls : KeptByCalls Holds) {m : Importer ρ σ κ} (h : Holds m.store m.key)
    (place : Nat) : Holds (m.step place).2.store (m.step place).2.key := by
  cases hstate : m.state <;> simp only [step, hstate]
  case header => exact headerStep_keeps h
  case windows31Line => exact windows31Step_keeps hcalls h
  case lineStart => exact lineStartStep_keeps h
  case keyName => exact keyNameStep_keeps hcalls h place
  case defaultName => exact h
  case quotedName => exact keeps_of_outside h (m.outside_quotedNameStep place)
  case assignment => exact keeps_of_outside h (m.outside_assignmentStep place)
  case typeTag => exact keeps_of_outside h (m.outside_typeTagStep place)
  case stringPayload => exact keeps_of_outside h (m.outside_stringStep place)
  case dwordPayload => exact keeps_of_outside h (m.outside_dwordStep place)
  case hexPayload => exact continueList_keeps h _ _
  case writing => exact writingStep_keeps hcalls h place

/-- So does the loop, by induction on the number of steps that are left. -/
theorem loop_keeps (hcalls : KeptByCalls Holds) {m : Importer ρ σ κ} (h : Holds m.store m.key)
    (place : Nat) : Holds (m.loop place).2.store (m.loop place).2.key := by
  induction hremaining : m.remaining using Nat.strongRecOn generalizing m place with
  | ind remaining ih =>
      have hkept := step_keeps hcalls h place
      rcases hstep : m.step place with ⟨progress, m'⟩
      rw [hstep] at hkept
      cases progress with
      | proceed next =>
          rw [loop_of_proceed hstep]
          exact ih m'.remaining (hremaining ▸ remaining_step hstep) hkept next rfl
      | finished => rwa [loop_of_finished hstep]
      | failed e => rwa [loop_of_failed hstep]

/-- **A run keeps what outlasts the calls, and holds no key in the end**, whether
it reads all lines or fails. -/
theorem run_keeps (hcalls : KeptByCalls Holds) {m : Importer ρ σ κ} (h : Holds m.store m.key) :
    Holds m.run.2.store none ∧ m.run.2.key = none := by
  have hended := closeKey_keeps hcalls (loop_keeps hcalls h 0)
  simp only [run]
  cases (m.loop 0).1 <;> exact hended

/-- Run again and again. -/
def runs (m : Importer ρ σ κ) : Nat → Importer ρ σ κ
  | 0 => m
  | n + 1 => (m.runs n).run.2

/-- So does any number of runs, of an importer that holds no key yet. -/
theorem runs_keeps (hcalls : KeptByCalls Holds) {m : Importer ρ σ κ} (h : Holds m.store none)
    (hkey : m.key = none) (n : Nat) : Holds (m.runs n).store none ∧ (m.runs n).key = none := by
  induction n with
  | zero => exact ⟨h, hkey⟩
  | succ n ih =>
      obtain ⟨hruns, hheld⟩ := ih
      exact run_keeps hcalls (hheld ▸ hruns)

end Keeps

section Store

variable {τ : Type}

/-- An importer with another store. -/
def mapStore (f : σ → τ) (m : Importer ρ σ κ) : Importer ρ τ κ :=
  m.recast f m.lines m.report.encoding

/-- Importers are made without a call of the store. -/
theorem ofSource_mapStore (f : σ → τ) (source : Source) (store : σ) (options : ImportOptions) :
    ofSource (κ := κ) source (f store) options =
      (ofSource source store options).map (mapStore f) := by
  unfold ofSource
  split
  · rfl
  · rfl
  · rfl
  · split <;> rfl

/-- A new importer is made from the first two bytes. -/
theorem exists_ofFirstBytes {source : Source} {store : σ} {options : ImportOptions}
    {m : Importer LineReader σ κ} (h : ofSource source store options = .ok m) :
    ∃ first second rest, m = ofFirstBytes first second rest store options := by
  unfold ofSource at h
  split at h
  · cases h
  · cases h
  · cases h
    exact ⟨_, _, _, rfl⟩
  · split at h
    · cases h
    · cases h
    · cases h
      exact ⟨_, _, _, rfl⟩

/-- A new importer holds its store as it was given, and no key. -/
theorem fresh_ofSource {source : Source} {store : σ} {options : ImportOptions}
    {m : Importer LineReader σ κ} (h : ofSource source store options = .ok m) :
    m.store = store ∧ m.key = none := by
  obtain ⟨first, second, rest, rfl⟩ := exists_ofFirstBytes h
  exact ⟨rfl, rfl⟩

/-- An importer of a source is made in the same way when its calls are recorded. -/
theorem exists_recording {source : Source} {store : σ} {options : ImportOptions}
    {m : Importer LineReader σ κ} (hm : ofSource source store options = .ok m) :
    ∃ recorded : Importer LineReader (RecordingStore σ κ) κ,
      ofSource source ⟨store, []⟩ options = .ok recorded ∧
        m = recorded.mapStore RecordingStore.behind := by
  have hmap := ofSource_mapStore (κ := κ) (RecordingStore.behind : RecordingStore σ κ → σ)
    source ⟨store, []⟩ options
  rw [hm] at hmap
  cases hrecorded : ofSource (κ := κ) source (⟨store, []⟩ : RecordingStore σ κ) options with
  | error e => rw [hrecorded] at hmap; cases hmap
  | ok recorded =>
      rw [hrecorded] at hmap
      exact ⟨recorded, rfl, Except.ok.inj hmap⟩

variable [LineSupply ρ] [RegistryStore σ κ] [RegistryStore τ κ]

/-- A run does not notice another store with the same answers. -/
theorem run_mapStore {f : σ → τ} (hf : RegistryStore.Morphism f) (m : Importer ρ σ κ) :
    (m.mapStore f).run = (m.run.1, m.run.2.mapStore f) := by
  obtain ⟨_, rfl, hrun⟩ := run_recast (m := m) m.report.encoding LineSupply.alike_eq hf rfl
  rw [mapStore, hrun, mapStore, encoding_run]

/-- Nor does any number of runs. -/
theorem runs_mapStore {f : σ → τ} (hf : RegistryStore.Morphism f) (m : Importer ρ σ κ) (n : Nat) :
    (m.mapStore f).runs n = (m.runs n).mapStore f := by
  induction n with
  | zero => rfl
  | succ n ih => rw [runs, ih, run_mapStore hf, runs]

end Store

end Importer

/-- What is recorded does not change what is answered. -/
theorem RecordingStore.morphism_behind {σ κ : Type} [RegistryStore σ κ] :
    RegistryStore.Morphism (RecordingStore.behind : RecordingStore σ κ → σ) where
  resolveRoot _ _ := rfl
  openKey _ _ _ := rfl
  closeKey _ _ := rfl
  setValue _ _ _ _ _ := rfl

/-- What a recording store keeps of a key that is asked for. -/
theorem RecordingStore.openKey_eq {σ κ : Type} [RegistryStore σ κ]
    {store store' : RecordingStore σ κ} {root : RootKey} {path : Text}
    {answer : Except StoreError κ}
    (h : RegistryStore.openKey store root path = (answer, store')) :
    ∃ behind, RegistryStore.openKey store.behind root path = (answer, behind) ∧
      store' = store.keep (.openKey root path answer) behind := by
  rcases hopen : RegistryStore.openKey store.behind root path with ⟨answer', behind⟩
  have hkept : RegistryStore.openKey store root path =
      (answer', store.keep (.openKey root path answer') behind) := by
    show (_, store.keep (.openKey root path _) _) = _
    rw [hopen]
  rw [hkept] at h
  cases h
  exact ⟨behind, rfl, rfl⟩

/-- The calls of an import are never taken back. -/
theorem keptByCalls_extends {σ κ : Type} [RegistryStore σ κ] (made : List (StoreCall κ)) :
    KeptByCalls fun (store : RecordingStore σ κ) (_ : Option κ) => made <+: store.calls := by
  have hkeep : ∀ {store : RecordingStore σ κ} {call : StoreCall κ} {behind : σ},
      made <+: store.calls → made <+: (store.keep call behind).calls := by
    intro store call behind h
    rw [RecordingStore.calls_keep]
    exact h.trans (List.prefix_append _ _)
  refine ⟨?_, ?_, fun h => hkeep h, fun _ _ _ h => hkeep h⟩
  · intro store store' root path key h hopen
    obtain ⟨behind, -, rfl⟩ := RecordingStore.openKey_eq hopen
    exact hkeep h
  · intro store store' root path cause h hopen
    obtain ⟨behind, -, rfl⟩ := RecordingStore.openKey_eq hopen
    exact hkeep h

/-- A store in memory, behind one that refuses writes, with its calls. -/
abbrev RecordedMemory := RecordingStore (RefusingStore MemoryStore) KeyHandle

/-- The store in memory has carried out the calls, and at no moment it had more
than one open handle. -/
structure Followed (store : RecordedMemory) (held : Option KeyHandle) : Prop where
  follows : store.behind.behind.Follows store.calls held
  openCount_le : ∀ entry ∈ store.history, entry.2.behind.openCount ≤ 1

/-- One more call. -/
theorem Followed.keep {store : RecordedMemory} {held held' : Option KeyHandle}
    (h : Followed store held) {call : StoreCall KeyHandle} {behind : RefusingStore MemoryStore}
    (hfollows : behind.behind.Follows (store.calls ++ [call]) held') :
    Followed (store.keep call behind) held' where
  follows := by rwa [RecordingStore.calls_keep]
  openCount_le := by
    intro entry hentry
    rcases List.mem_append.mp hentry with hbefore | hlast
    · exact h.openCount_le entry hbefore
    · rw [List.mem_singleton.mp hlast]
      exact hfollows.openCount_le

/-- What a refusing store passes on of a key that is asked for. -/
theorem RefusingStore.openKey_eq {store store' : RefusingStore MemoryStore} {root : RootKey}
    {path : Text} {answer : Except StoreError KeyHandle}
    (h : RegistryStore.openKey store root path = (answer, store')) :
    store.behind.openKey root path = (answer, store'.behind) := by
  have hanswer : (store.behind.openKey root path).1 = answer := congrArg Prod.fst h
  have hstore : (store.behind.openKey root path).2 = store'.behind :=
    congrArg (fun answered => answered.2.behind) h
  exact Prod.ext hanswer hstore

/-- The store in memory follows the calls of an import. -/
theorem keptByCalls_followed : KeptByCalls Followed where
  opened := by
    intro store store' root path key h hopen
    obtain ⟨behind, hbehind, rfl⟩ := RecordingStore.openKey_eq hopen
    exact h.keep (h.follows.openKey (RefusingStore.openKey_eq hbehind))
  refused := by
    intro store store' root path cause h hopen
    obtain ⟨behind, hbehind, rfl⟩ := RecordingStore.openKey_eq hopen
    exact h.keep (h.follows.refused (RefusingStore.openKey_eq hbehind))
  closed := by
    intro store key h
    exact h.keep h.follows.closeKey
  set := by
    intro store key name type data h
    refine h.keep ?_
    show (store.behind.setValue key name type data).2.behind.Follows
      (store.calls ++ [.setValue key name type data (store.behind.setValue key name type data).1])
      (some key)
    unfold RefusingStore.setValue
    dsimp only
    split
    · exact h.follows.unset name type data RefusingStore.refusal
    · exact h.follows.setValue name type data

end RegistryText
