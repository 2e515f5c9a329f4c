import RegistryText.Proofs.Store.Calls
import RegistryText.Proofs.Store.Memory

/-!
# Refused writes

The writes that a store is asked for are numbered from zero.  `refusedCalls` are the
calls in which the writes with chosen numbers have been refused, and `keptOps` is the log
without them.  **If no write of the calls has failed, their log with these writes refused
is their log without these writes** (`logged_refusedCalls`).

What a store in memory answers does not depend on the values that it holds:
`Parallel` relates two stores that hold the same key, and they go on answering alike when
a write reaches only one of them (`Parallel.setFirst`).
-/

namespace RegistryText

/-! ### Numbers of writes -/

/-- The entries of a list, those that are picked with their numbers from `k` on. -/
def numbered {α : Type} (picks : α → Bool) : Nat → List α → List (Option Nat × α)
  | _, [] => []
  | k, entry :: rest =>
      if picks entry then (some k, entry) :: numbered picks (k + 1) rest
      else (none, entry) :: numbered picks k rest

theorem numbered_append {α : Type} (picks : α → Bool) (k : Nat) (front rest : List α) :
    numbered picks k (front ++ rest) =
      numbered picks k front ++ numbered picks (k + front.countP picks) rest := by
  induction front generalizing k with
  | nil => rfl
  | cons entry front ih =>
      cases hpicks : picks entry with
      | true =>
          have hnext : k + 1 + front.countP picks = k + (front.countP picks + 1) := by omega
          simp [numbered, hpicks, ih, hnext]
      | false => simp [numbered, hpicks, ih]

/-- Whether a logged call set a value. -/
def StoreOp.isWrite : StoreOp → Bool
  | openKey _ | closeKey _ => false
  | setValue _ _ _ _ => true

namespace StoreCall

variable {κ : Type}

/-- Whether a call asks for a value to be set. -/
def isWrite : StoreCall κ → Bool
  | openKey _ _ _ | closeKey _ => false
  | setValue _ _ _ _ _ => true

/-- What a call asks for, if this is that a value is set. -/
def write? : StoreCall κ → Option (κ × KeyWrite)
  | openKey _ _ _ | closeKey _ => none
  | setValue key name type data _ => some (key, ⟨name, type, data⟩)

/-- Whether a value was to be set and was not. -/
def isFailedWrite : StoreCall κ → Bool
  | setValue _ _ _ _ (.error _) => true
  | setValue _ _ _ _ (.ok ()) => false
  | openKey _ _ _ | closeKey _ => false

/-- The call with its write refused. -/
def refused : StoreCall κ → StoreCall κ
  | setValue key name type data _ => setValue key name type data (.error RefusingStore.refusal)
  | openKey root path answer => openKey root path answer
  | closeKey key => closeKey key

end StoreCall

section Refused

variable {κ : Type} (refuses : Nat → Bool)

/-- Calls in which the writes with chosen numbers have been refused; the first write has
the number `k`. -/
def refusedCalls (k : Nat) (calls : List (StoreCall κ)) : List (StoreCall κ) :=
  (numbered StoreCall.isWrite k calls).map fun entry =>
    if entry.1.any refuses then entry.2.refused else entry.2

/-- A log without the writes with chosen numbers; the first write has the number `k`. -/
def keptOps (k : Nat) (log : List StoreOp) : List StoreOp :=
  (numbered StoreOp.isWrite k log).filterMap fun entry =>
    if entry.1.any refuses then none else some entry.2

theorem refusedCalls_append (k : Nat) (front rest : List (StoreCall κ)) :
    refusedCalls refuses k (front ++ rest) =
      refusedCalls refuses k front ++
        refusedCalls refuses (k + front.countP StoreCall.isWrite) rest := by
  simp only [refusedCalls, numbered_append, List.map_append]

/-- A call that is no write is not refused. -/
theorem refusedCalls_singleton {call : StoreCall κ} (h : call.isWrite = false) (k : Nat) :
    refusedCalls refuses k [call] = [call] := by
  simp [refusedCalls, numbered, h]

theorem refusedCalls_write (k : Nat) (key : κ) (name : Option Text) (type : ValueType)
    (data : Bytes) (answer : Except StoreError Unit) :
    refusedCalls refuses k [.setValue key name type data answer] =
      [.setValue key name type data
        (if refuses k then .error RefusingStore.refusal else answer)] := by
  cases hrefuses : refuses k <;>
    simp [refusedCalls, numbered, StoreCall.isWrite, StoreCall.refused, hrefuses]

/-- **What is asked for does not depend on what is refused.** -/
theorem filterMap_write?_refusedCalls (k : Nat) (calls : List (StoreCall κ)) :
    (refusedCalls refuses k calls).filterMap StoreCall.write? =
      calls.filterMap StoreCall.write? := by
  induction calls generalizing k with
  | nil => rfl
  | cons call calls ih =>
      rw [← List.singleton_append, refusedCalls_append, List.filterMap_append, ih,
        List.filterMap_append]
      cases call with
      | openKey root path answer | closeKey key => rw [refusedCalls_singleton refuses rfl]
      | setValue key name type data answer =>
          rw [refusedCalls_write]
          rfl

theorem keptOps_cons (k : Nat) (op : StoreOp) (log : List StoreOp) :
    keptOps refuses k (op :: log) =
      if op.isWrite then
        if refuses k then keptOps refuses (k + 1) log else op :: keptOps refuses (k + 1) log
      else op :: keptOps refuses k log := by
  cases hwrite : op.isWrite <;> cases hrefuses : refuses k <;>
    simp [keptOps, numbered, hwrite, hrefuses]

/-- **The log of calls with refused writes is the log without these writes**, if otherwise
no write fails. -/
theorem logged_refusedCalls (k : Nat) {calls : List (StoreCall KeyHandle)}
    (h : ∀ call ∈ calls, call.isFailedWrite = false) :
    (refusedCalls refuses k calls).filterMap StoreCall.logged? =
      keptOps refuses k (calls.filterMap StoreCall.logged?) := by
  induction calls generalizing k with
  | nil => rfl
  | cons call calls ih =>
      have hrest := fun k => ih k fun call' hmem => h call' (List.mem_cons_of_mem _ hmem)
      have hfirst := h call List.mem_cons_self
      rw [← List.singleton_append, refusedCalls_append, List.filterMap_append, hrest,
        List.filterMap_append]
      cases call with
      | closeKey key =>
          rw [refusedCalls_singleton refuses rfl]
          exact (keptOps_cons refuses k (.closeKey key.path) _).symm
      | openKey root path answer =>
          rw [refusedCalls_singleton refuses rfl]
          cases answer with
          | error cause => rfl
          | ok key => exact (keptOps_cons refuses k (.openKey key.path) _).symm
      | setValue key name type data answer =>
          cases answer with
          | error cause => cases hfirst
          | ok answer =>
              have hkept := keptOps_cons refuses k (.setValue key.path name type data)
                (calls.filterMap StoreCall.logged?)
              rw [refusedCalls_write]
              cases hrefuses : refuses k <;> rw [hrefuses] at hkept <;> exact hkept.symm

end Refused

/-! ### Stores that answer alike -/

namespace MemoryStore

variable {store store' : MemoryStore}

/-- Two stores that hold the same key and answer alike, whatever values they hold. -/
structure Parallel (store store' : MemoryStore) (held : Option KeyHandle) : Prop where
  first : store.Serves held
  second : store'.Serves held
  denied : store'.denied = store.denied
  nextId : store'.nextId = store.nextId

/-- Both refuse a key, or both open it under the same handle. -/
theorem Parallel.openKey (h : Parallel store store' none) (root : RootKey) (path : Text) :
    ∃ answer opened opened', store.openKey root path = (answer, opened) ∧
      store'.openKey root path = (answer, opened') ∧
      Parallel opened opened' answer.toOption := by
  have hsame : store'.isDenied (slotOf (canonicalPath root path)) =
      store.isDenied (slotOf (canonicalPath root path)) := by
    rw [isDenied, isDenied, h.denied]
  cases hdenied : store.isDenied (slotOf (canonicalPath root path)) with
  | true =>
      rw [hdenied] at hsame
      refine ⟨.error (.backend ("access denied: ".toList ++ canonicalPath root path)), store,
        store', ?_, ?_, h⟩
      · rw [MemoryStore.openKey, if_pos hdenied]
      · rw [MemoryStore.openKey, if_pos hsame]
  | false =>
      rw [hdenied] at hsame
      obtain ⟨opened, hopen, hserves, hfree, hnext, -⟩ := h.first.openKey hdenied
      obtain ⟨opened', hopen', hserves', hfree', hnext', -⟩ := h.second.openKey hsame
      rw [h.nextId] at hopen' hserves' hnext'
      exact ⟨_, opened, opened', hopen, hopen', hserves, hserves',
        hfree'.trans (h.denied.trans hfree.symm), hnext'.trans hnext.symm⟩

/-- Both close the key that they hold. -/
theorem Parallel.closeKey {key : KeyHandle} (h : Parallel store store' (some key)) :
    Parallel (store.closeKey key) (store'.closeKey key) none := by
  obtain ⟨hserves, hdenied, hnext, -⟩ := h.first.closeKey
  obtain ⟨hserves', hdenied', hnext', -⟩ := h.second.closeKey
  exact ⟨hserves, hserves', hdenied'.trans (h.denied.trans hdenied.symm),
    hnext'.trans (h.nextId.trans hnext.symm)⟩

/-- A value that is set in the first store alone. -/
theorem Parallel.setFirst {key : KeyHandle} (h : Parallel store store' (some key))
    (name : Option Text) (type : ValueType) (data : Bytes) :
    ∃ written, store.setValue key name type data = (.ok (), written) ∧
      Parallel written store' (some key) := by
  obtain ⟨written, hset, hserves, hdenied, hnext, -⟩ := h.first.setValue name type data
  exact ⟨written, hset, hserves, h.second, h.denied.trans hdenied.symm, h.nextId.trans hnext.symm⟩

/-- A value that is set in both. -/
theorem Parallel.setBoth {key : KeyHandle} (h : Parallel store store' (some key))
    (name : Option Text) (type : ValueType) (data : Bytes) :
    ∃ written written', store.setValue key name type data = (.ok (), written) ∧
      store'.setValue key name type data = (.ok (), written') ∧
      Parallel written written' (some key) := by
  obtain ⟨written, hset, hfirst⟩ := h.setFirst name type data
  obtain ⟨written', hset', hserves', hdenied', hnext', -⟩ := h.second.setValue name type data
  exact ⟨written, written', hset, hset', hfirst.first, hserves', hdenied'.trans hfirst.denied,
    hnext'.trans hfirst.nextId⟩

/-- A store in which nothing has been done yet holds no key. -/
theorem serves_deny (denied : List Text) : (denied.foldl MemoryStore.deny {}).Serves none :=
  ⟨(follows_deny denied).opened, by simp⟩

/-- It answers as itself. -/
theorem parallel_deny (denied : List Text) :
    Parallel (denied.foldl MemoryStore.deny {}) (denied.foldl MemoryStore.deny {}) none :=
  ⟨serves_deny denied, serves_deny denied, rfl, rfl⟩

end MemoryStore

end RegistryText
