import RegistryText.Store.Memory
import RegistryText.Store.Refusing

/-!
# Calls of a store

A recording store stands in front of another one and keeps every call that it
passes on, with its answer and with the store that it left.  The calls respect
handles when a key is opened only while none is held, and a value is set and a
handle is closed only through the key that is held; `HeldAfter` says so and
names the key that is held behind the calls.

A store in memory logs the calls that it carried out.  **If the calls respect
handles and hold no key in the end, the log is a sequence of blocks**, each of
which opens one key, sets values of that key and closes it
(`HeldAfter.exists_blocks`).
-/

namespace RegistryText

/-- A call of a store, with its answer. -/
inductive StoreCall (κ : Type) where
  | openKey (root : RootKey) (path : Text) (answer : Except StoreError κ)
  | closeKey (key : κ)
  | setValue (key : κ) (name : Option Text) (type : ValueType) (data : Bytes)
      (answer : Except StoreError Unit)

/-- A store in front of another that keeps the calls it passes on. -/
structure RecordingStore (σ κ : Type) where
  /-- The store behind. -/
  behind : σ
  /-- The calls, oldest first, each with the store that it left. -/
  history : List (StoreCall κ × σ) := []

namespace RecordingStore

variable {σ κ : Type}

/-- The calls, oldest first. -/
def calls (store : RecordingStore σ κ) : List (StoreCall κ) :=
  store.history.map fun entry => entry.1

/-- Keep a call that left a store. -/
def keep (store : RecordingStore σ κ) (call : StoreCall κ) (behind : σ) : RecordingStore σ κ :=
  ⟨behind, store.history ++ [(call, behind)]⟩

@[simp] theorem calls_keep (store : RecordingStore σ κ) (call : StoreCall κ) (behind : σ) :
    (store.keep call behind).calls = store.calls ++ [call] := by
  simp [calls, keep]

end RecordingStore

instance {σ κ : Type} [RegistryStore σ κ] : RegistryStore (RecordingStore σ κ) κ where
  resolveRoot store path := RegistryStore.resolveRoot (κ := κ) store.behind path
  openKey store root path :=
    let r := RegistryStore.openKey store.behind root path
    (r.1, store.keep (.openKey root path r.1) r.2)
  closeKey store key := store.keep (.closeKey key) (RegistryStore.closeKey store.behind key)
  setValue store key name type data :=
    let r := RegistryStore.setValue store.behind key name type data
    (r.1, store.keep (.setValue key name type data r.1) r.2)

/-- The calls respect handles, and `held` is the key that is held behind them. -/
inductive HeldAfter {κ : Type} : List (StoreCall κ) → Option κ → Prop
  | start : HeldAfter [] none
  | refused {calls : List (StoreCall κ)} (h : HeldAfter calls none) (root : RootKey) (path : Text)
      (cause : StoreError) : HeldAfter (calls ++ [.openKey root path (.error cause)]) none
  | opened {calls : List (StoreCall κ)} (h : HeldAfter calls none) (root : RootKey) (path : Text)
      (key : κ) : HeldAfter (calls ++ [.openKey root path (.ok key)]) (some key)
  | set {calls : List (StoreCall κ)} {key : κ} (h : HeldAfter calls (some key))
      (name : Option Text) (type : ValueType) (data : Bytes) (answer : Except StoreError Unit) :
      HeldAfter (calls ++ [.setValue key name type data answer]) (some key)
  | closed {calls : List (StoreCall κ)} {key : κ} (h : HeldAfter calls (some key)) :
      HeldAfter (calls ++ [.closeKey key]) none

/-- The key that a call opened. -/
def StoreCall.opened? {κ : Type} : StoreCall κ → Option κ
  | openKey _ _ (.ok key) => some key
  | openKey _ _ (.error _) => none
  | closeKey _ => none
  | setValue _ _ _ _ _ => none

/-- What a store in memory logs of a call that it was passed. -/
def StoreCall.logged? : StoreCall KeyHandle → Option StoreOp
  | openKey _ _ (.ok key) => some (.openKey key.path)
  | openKey _ _ (.error _) => none
  | closeKey key => some (.closeKey key.path)
  | setValue key name type data (.ok ()) => some (.setValue key.path name type data)
  | setValue _ _ _ _ (.error _) => none

/-- A value that is set. -/
structure KeyWrite where
  name : Option Text
  type : ValueType
  data : Bytes
  deriving DecidableEq, Repr

/-- A write to the key of a path, as it is logged. -/
def KeyWrite.op (path : Text) (write : KeyWrite) : StoreOp :=
  .setValue path write.name write.type write.data

/-- A key that is opened, written to and closed. -/
structure KeyBlock where
  path : Text
  writes : List KeyWrite
  deriving DecidableEq, Repr

/-- The log of a block. -/
def KeyBlock.ops (block : KeyBlock) : List StoreOp :=
  .openKey block.path :: block.writes.map (KeyWrite.op block.path) ++ [.closeKey block.path]

/-- A log of blocks, behind which stands an unfinished block if a key is held. -/
def LoggedBlocks (log : List StoreOp) : Option KeyHandle → Prop
  | none => ∃ blocks : List KeyBlock, log = blocks.flatMap KeyBlock.ops
  | some key => ∃ (blocks : List KeyBlock) (writes : List KeyWrite),
      log = blocks.flatMap KeyBlock.ops ++ .openKey key.path :: writes.map (KeyWrite.op key.path)

/-- Calls that respect handles are logged in blocks. -/
theorem HeldAfter.loggedBlocks {calls : List (StoreCall KeyHandle)} {held : Option KeyHandle}
    (h : HeldAfter calls held) : LoggedBlocks (calls.filterMap StoreCall.logged?) held := by
  induction h with
  | start => exact ⟨[], rfl⟩
  | refused h root path cause ih =>
      obtain ⟨blocks, hlog⟩ := ih
      exact ⟨blocks, by simp [hlog, StoreCall.logged?]⟩
  | opened h root path key ih =>
      obtain ⟨blocks, hlog⟩ := ih
      exact ⟨blocks, [], by simp [hlog, StoreCall.logged?]⟩
  | @set calls key h name type data answer ih =>
      obtain ⟨blocks, writes, hlog⟩ := ih
      cases answer with
      | error cause => exact ⟨blocks, writes, by simp [hlog, StoreCall.logged?]⟩
      | ok =>
          exact ⟨blocks, writes ++ [⟨name, type, data⟩],
            by simp [hlog, StoreCall.logged?, KeyWrite.op]⟩
  | @closed calls key h ih =>
      obtain ⟨blocks, writes, hlog⟩ := ih
      exact ⟨blocks ++ [⟨key.path, writes⟩],
        by simp [hlog, StoreCall.logged?, KeyBlock.ops]⟩

/-- Calls that respect handles and hold no key in the end are logged in whole
blocks. -/
theorem HeldAfter.exists_blocks {calls : List (StoreCall KeyHandle)} (h : HeldAfter calls none) :
    ∃ blocks : List KeyBlock,
      calls.filterMap StoreCall.logged? = blocks.flatMap KeyBlock.ops :=
  h.loggedBlocks

namespace MemoryStore

/-- The store has carried out calls: its log is theirs, the key that is held
behind them is the only one that is open, and the handles that they opened are
numbered in order. -/
structure Follows (store : MemoryStore) (calls : List (StoreCall KeyHandle))
    (held : Option KeyHandle) : Prop where
  opened : store.opened = held.toList.map KeyHandle.id
  log : store.log = calls.filterMap StoreCall.logged?
  ids : (calls.filterMap StoreCall.opened?).map KeyHandle.id = List.range store.nextId

variable {store : MemoryStore} {calls : List (StoreCall KeyHandle)}

theorem Follows.openCount_le {held : Option KeyHandle} (h : store.Follows calls held) :
    store.openCount ≤ 1 := by
  rw [openCount, h.opened]
  cases held <;> simp

theorem Follows.openKey (h : store.Follows calls none) {root : RootKey} {path : Text}
    {key : KeyHandle} {store' : MemoryStore} (hopen : store.openKey root path = (.ok key, store')) :
    store'.Follows (calls ++ [.openKey root path (.ok key)]) (some key) := by
  unfold MemoryStore.openKey at hopen
  dsimp only at hopen
  split at hopen
  · cases hopen
  · cases hopen
    exact ⟨by simp [h.opened], by simp [h.log, StoreCall.logged?],
      by simp [h.ids, StoreCall.opened?, List.range_succ]⟩

theorem Follows.refused (h : store.Follows calls none) {root : RootKey} {path : Text}
    {cause : StoreError} {store' : MemoryStore}
    (hopen : store.openKey root path = (.error cause, store')) :
    store'.Follows (calls ++ [.openKey root path (.error cause)]) none := by
  unfold MemoryStore.openKey at hopen
  dsimp only at hopen
  split at hopen
  · cases hopen
    exact ⟨h.opened, by simp [h.log, List.filterMap_cons, StoreCall.logged?],
      by simp [h.ids, List.filterMap_cons, StoreCall.opened?]⟩
  · cases hopen

theorem Follows.closeKey {key : KeyHandle} (h : store.Follows calls (some key)) :
    (store.closeKey key).Follows (calls ++ [.closeKey key]) none := by
  have hopened : store.opened = [key.id] := h.opened
  constructor <;>
    simp [MemoryStore.closeKey, hopened, h.log, h.ids, StoreCall.logged?, StoreCall.opened?]

/-- A write that did not reach the store leaves it. -/
theorem Follows.unset {key : KeyHandle} (h : store.Follows calls (some key))
    (name : Option Text) (type : ValueType) (data : Bytes) (cause : StoreError) :
    store.Follows (calls ++ [.setValue key name type data (.error cause)]) (some key) :=
  ⟨h.opened, by simp [h.log, List.filterMap_cons, StoreCall.logged?],
    by simp [h.ids, List.filterMap_cons, StoreCall.opened?]⟩

theorem Follows.setValue {key : KeyHandle} (h : store.Follows calls (some key))
    (name : Option Text) (type : ValueType) (data : Bytes) :
    (store.setValue key name type data).2.Follows
      (calls ++ [.setValue key name type data (store.setValue key name type data).1])
      (some key) := by
  unfold MemoryStore.setValue
  split
  · exact ⟨h.opened, by simp [h.log, StoreCall.logged?],
      by simp [h.ids, List.filterMap_cons, StoreCall.opened?]⟩
  · exact h.unset name type data _

/-- A store without keys in which paths are denied has carried out nothing. -/
theorem follows_deny (denied : List Text) :
    (denied.foldl MemoryStore.deny {}).Follows [] none := by
  have hdeny : ∀ store : MemoryStore, store.Follows [] none →
      (denied.foldl MemoryStore.deny store).Follows [] none := by
    induction denied with
    | nil => exact fun store h => h
    | cons path denied ih =>
        intro store h
        refine ih (store.deny path) ?_
        unfold deny
        split
        · exact h
        · exact ⟨h.opened, h.log, h.ids⟩
  exact hdeny {} ⟨rfl, rfl, rfl⟩

end MemoryStore

end RegistryText
