import RegistryText.Proofs.Import.Handles
import RegistryText.Proofs.Store.RefusedWrites

/-!
# Stores that have been asked for the same

Two recorded stores in memory, of which the first one carries out all writes and the second
one refuses those with chosen numbers, have been asked for the same by two imports.
`RefusesWrites` says what is then the same about them: **the calls of the second store are
those of the first one with these writes refused**, and the memories go on answering alike.
It survives each of the calls that an import makes.
-/

namespace RegistryText

/-! ### Answers of the stores in front of a memory -/

section Answers

variable {store : RecordedMemory} {memory : MemoryStore}

/-- A key is asked for behind all that stands in front of the memory. -/
theorem RecordedMemory.openKey_eq {root : RootKey} {path : Text}
    {answer : Except StoreError KeyHandle}
    (h : store.behind.behind.openKey root path = (answer, memory)) :
    RegistryStore.openKey store root path =
      (answer, store.keep (.openKey root path answer) { store.behind with behind := memory }) := by
  have hbehind : RegistryStore.openKey store.behind root path =
      (answer, { store.behind with behind := memory }) := by
    show ((store.behind.behind.openKey root path).1,
      { store.behind with behind := (store.behind.behind.openKey root path).2 }) = _
    rw [h]
  show (_, store.keep (.openKey root path (RegistryStore.openKey store.behind root path).1)
    (RegistryStore.openKey store.behind root path).2) = _
  rw [hbehind]

/-- What is kept of a write with the answer of the store behind. -/
theorem RecordedMemory.setValue_eq {key : KeyHandle} {name : Option Text} {type : ValueType}
    {data : Bytes} {answer : Except StoreError Unit} {behind : RefusingStore MemoryStore}
    (h : store.behind.setValue key name type data = (answer, behind)) :
    RegistryStore.setValue store key name type data =
      (answer, store.keep (.setValue key name type data answer) behind) := by
  have hbehind : RegistryStore.setValue store.behind key name type data = (answer, behind) := h
  show (_, store.keep (.setValue key name type data
    (RegistryStore.setValue store.behind key name type data).1)
    (RegistryStore.setValue store.behind key name type data).2) = _
  rw [hbehind]

/-- A write whose number is not refused reaches the memory. -/
theorem RefusingStore.setValue_of_accepted {store : RefusingStore MemoryStore}
    (haccepted : store.refuses store.writes = false) {key : KeyHandle} {name : Option Text}
    {type : ValueType} {data : Bytes} {answer : Except StoreError Unit}
    (h : store.behind.setValue key name type data = (answer, memory)) :
    store.setValue key name type data =
      (answer, { store with behind := memory, writes := store.writes + 1 }) := by
  have hbehind : RegistryStore.setValue store.behind key name type data = (answer, memory) := h
  simp only [RefusingStore.setValue, haccepted, hbehind]
  rfl

/-- A write whose number is refused does not. -/
theorem RefusingStore.setValue_of_refused {store : RefusingStore MemoryStore}
    (hrefused : store.refuses store.writes = true) (key : KeyHandle) (name : Option Text)
    (type : ValueType) (data : Bytes) :
    store.setValue key name type data =
      (.error RefusingStore.refusal, { store with writes := store.writes + 1 }) := by
  simp only [RefusingStore.setValue, hrefused, if_true]

end Answers

/-! ### Both stores -/

/-- The first store carries out all writes, the second one refuses those with chosen
numbers, and the same has been asked of both. -/
structure RefusesWrites (refuses : Nat → Bool) (store store' : RecordedMemory)
    (held : Option KeyHandle) : Prop where
  behind : store.behind.behind.Parallel store'.behind.behind held
  accepting : store.behind.refuses = fun _ => false
  refusing : store'.behind.refuses = refuses
  writes : store.behind.writes = store.calls.countP StoreCall.isWrite
  writes_eq : store'.behind.writes = store.behind.writes
  calls : store'.calls = refusedCalls refuses 0 store.calls
  successful : ∀ call ∈ store.calls, call.isFailedWrite = false

namespace RefusesWrites

variable {refuses : Nat → Bool} {store store' : RecordedMemory} {held : Option KeyHandle}

/-- One more call, which the first store carries out. -/
theorem successful_keep (h : RefusesWrites refuses store store' held)
    {call : StoreCall KeyHandle} (hcall : call.isFailedWrite = false)
    (behind : RefusingStore MemoryStore) :
    ∀ call' ∈ (store.keep call behind).calls, call'.isFailedWrite = false := by
  rw [RecordingStore.calls_keep]
  intro call' hmem
  rcases List.mem_append.mp hmem with hbefore | hlast
  · exact h.successful call' hbefore
  · rwa [List.mem_singleton.mp hlast]

/-- Both keep a call that is no write. -/
theorem keep {held' : Option KeyHandle} (h : RefusesWrites refuses store store' held)
    {call : StoreCall KeyHandle} (hcall : call.isWrite = false) {memory memory' : MemoryStore}
    (hmemory : memory.Parallel memory' held') :
    RefusesWrites refuses (store.keep call { store.behind with behind := memory })
      (store'.keep call { store'.behind with behind := memory' }) held' where
  behind := hmemory
  accepting := h.accepting
  refusing := h.refusing
  writes := by
    rw [RecordingStore.calls_keep, List.countP_append]
    simp only [List.countP_singleton, hcall]
    exact h.writes
  writes_eq := h.writes_eq
  calls := by
    rw [RecordingStore.calls_keep, RecordingStore.calls_keep, refusedCalls_append, h.calls,
      refusedCalls_singleton refuses hcall]
  successful := by
    refine h.successful_keep ?_ _
    cases call with
    | openKey root path answer | closeKey key => rfl
    | setValue key name type data answer => cases hcall

/-- Both close the key that they hold. -/
theorem closeKey {key : KeyHandle} (h : RefusesWrites refuses store store' (some key)) :
    RefusesWrites refuses (RegistryStore.closeKey store key) (RegistryStore.closeKey store' key)
      none := by
  have hcall : (StoreCall.closeKey key).isWrite = false := rfl
  exact h.keep hcall h.behind.closeKey

/-- Both open a key, under the same handle, or neither does. -/
theorem openKey (h : RefusesWrites refuses store store' none) (root : RootKey) (path : Text) :
    ∃ answer opened opened', RegistryStore.openKey store root path = (answer, opened) ∧
      RegistryStore.openKey store' root path = (answer, opened') ∧
      RefusesWrites refuses opened opened' answer.toOption ∧
      opened.behind.writes = store.behind.writes := by
  obtain ⟨answer, memory, memory', hopen, hopen', hmemory⟩ := h.behind.openKey root path
  have hcall : (StoreCall.openKey root path answer).isWrite = false := rfl
  exact ⟨answer, _, _, RecordedMemory.openKey_eq hopen, RecordedMemory.openKey_eq hopen',
    h.keep hcall hmemory, rfl⟩

/-- The first store sets a value, and the second one does unless the write is refused. -/
theorem setValue {key : KeyHandle} (h : RefusesWrites refuses store store' (some key))
    (name : Option Text) (type : ValueType) (data : Bytes) :
    ∃ written written', RegistryStore.setValue store key name type data = (.ok (), written) ∧
      RegistryStore.setValue store' key name type data =
        (if refuses store.behind.writes then .error RefusingStore.refusal else .ok (), written') ∧
      RefusesWrites refuses written written' (some key) ∧
      written.behind.writes = store.behind.writes + 1 := by
  have haccepted : store.behind.refuses store.behind.writes = false := by rw [h.accepting]
  obtain ⟨memory, memory', hset, hset', hmemory⟩ : ∃ memory behind',
      store.behind.behind.setValue key name type data = (.ok (), memory) ∧
      store'.behind.setValue key name type data =
        (if refuses store.behind.writes then .error RefusingStore.refusal else .ok (),
          { store'.behind with behind := behind', writes := store'.behind.writes + 1 }) ∧
      memory.Parallel behind' (some key) := by
    cases hrefuses : refuses store.behind.writes with
    | true =>
        obtain ⟨memory, hset, hmemory⟩ := h.behind.setFirst name type data
        have hrefused : store'.behind.refuses store'.behind.writes = true := by
          rw [h.refusing, h.writes_eq, hrefuses]
        refine ⟨memory, store'.behind.behind, hset, ?_, hmemory⟩
        rw [RefusingStore.setValue_of_refused hrefused, if_pos rfl]
    | false =>
        obtain ⟨memory, memory', hset, hset', hmemory⟩ := h.behind.setBoth name type data
        have haccepted' : store'.behind.refuses store'.behind.writes = false := by
          rw [h.refusing, h.writes_eq, hrefuses]
        refine ⟨memory, memory', hset, ?_, hmemory⟩
        rw [RefusingStore.setValue_of_accepted haccepted' hset']
        rfl
  refine ⟨_, _, RecordedMemory.setValue_eq (RefusingStore.setValue_of_accepted haccepted hset),
    RecordedMemory.setValue_eq hset', ?_, rfl⟩
  exact {
    behind := hmemory
    accepting := h.accepting
    refusing := h.refusing
    writes := by
      rw [RecordingStore.calls_keep, List.countP_append]
      exact congrArg (· + 1) h.writes
    writes_eq := congrArg (· + 1) h.writes_eq
    calls := by
      rw [RecordingStore.calls_keep, RecordingStore.calls_keep, refusedCalls_append, h.calls,
        refusedCalls_write, Nat.zero_add, ← h.writes]
    successful := h.successful_keep rfl _ }

end RefusesWrites

end RegistryText
