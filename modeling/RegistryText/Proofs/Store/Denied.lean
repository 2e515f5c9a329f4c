import RegistryText.Proofs.Store.Memory

/-!
# Denied keys

Two stores in memory are given the same calls, one of them with denied keys.
`Withholds` relates them: **the log of the one is the log of the other without
the calls about denied keys and keys below them**, and it holds a key only while
the other one holds the same key and this is not denied.  Each of the calls that
an import makes leaves them related.
-/

namespace RegistryText

/-- The path of the key that a logged call is about. -/
def StoreOp.path : StoreOp → Text
  | openKey path | closeKey path | setValue path _ _ _ => path

/-- The slots of the keys that paths name. -/
def slotsOf (paths : List Text) : List Text :=
  paths.filterMap slotOfPath?

/-- The reason for which a store does not open a denied key. -/
def accessDenied (path : Text) : Text :=
  "access denied: ".toList ++ path

/-- Whether the key of a canonical path is in one of the slots or below it. -/
def liesWithin (slots : List Text) (path : Text) : Bool :=
  slots.any fun above => slotCovers above (slotOf path)

theorem slotCovers_iff {above slot : Text} :
    slotCovers above slot = true ↔ slot = above ∨ ∃ below, slot = above ++ '\\' :: below := by
  unfold slotCovers
  cases hafter : Text.after? above slot with
  | none =>
      have hnone : ∀ rest, slot ≠ above ++ rest := by
        intro rest heq
        rw [Text.after?_eq_some_iff.mpr heq] at hafter
        cases hafter
      simp only [Bool.false_eq_true, false_iff, not_or, not_exists]
      exact ⟨fun heq => hnone [] (by simpa using heq), fun below => hnone ('\\' :: below)⟩
  | some rest =>
      obtain rfl := Text.after?_eq_some_iff.mp hafter
      cases rest with
      | nil => simp
      | cons c rest => simp

/-- **What it means to lie within denied keys**: to be one of them or to stand
below one, compared by the lower case of canonical paths. -/
theorem liesWithin_iff {denied : List Text} {path : Text} :
    liesWithin (slotsOf denied) path = true ↔
      ∃ d ∈ denied, ∃ root below, RootKey.split? d = some (root, below) ∧
        (path.lowerCase = (canonicalPath root below).lowerCase ∨
          ∃ rest, path.lowerCase = (canonicalPath root below).lowerCase ++ '\\' :: rest) := by
  simp only [liesWithin, slotsOf, List.any_eq_true, List.mem_filterMap, slotOfPath?,
    Option.map_eq_some_iff, slotCovers_iff, slotOf]
  constructor
  · rintro ⟨_, ⟨d, hd, ⟨root, below⟩, hsplit, rfl⟩, hcovers⟩
    exact ⟨d, hd, root, below, hsplit, hcovers⟩
  · rintro ⟨d, hd, root, below, hsplit, hcovers⟩
    exact ⟨_, ⟨d, hd, (root, below), hsplit, rfl⟩, hcovers⟩

namespace MemoryStore

/-- The store with other denied slots. -/
def withDenied (slots : List Text) (store : MemoryStore) : MemoryStore :=
  { store with denied := slots }

/-- Denying paths denies their slots. -/
theorem foldl_deny (denied : List Text) :
    denied.foldl MemoryStore.deny {} = withDenied (slotsOf denied) {} := by
  have hdeny : ∀ store : MemoryStore, denied.foldl MemoryStore.deny store =
      store.withDenied (store.denied ++ slotsOf denied) := by
    induction denied with
    | nil => intro store; simp [withDenied, slotsOf]
    | cons path denied ih =>
        intro store
        rw [List.foldl_cons, ih, slotsOf, slotsOf, List.filterMap_cons, deny]
        cases slotOfPath? path <;> simp [withDenied]
  exact hdeny {}

variable (slots : List Text) (store : MemoryStore)

theorem closeKey_withDenied (key : KeyHandle) :
    (store.withDenied slots).closeKey key = (store.closeKey key).withDenied slots := by
  by_cases hopen : key.id ∈ store.opened <;> simp [closeKey, withDenied, hopen]

theorem setValue_withDenied (key : KeyHandle) (name : Option Text) (type : ValueType)
    (data : Bytes) : (store.withDenied slots).setValue key name type data =
      ((store.setValue key name type data).1,
        (store.setValue key name type data).2.withDenied slots) := by
  cases hwritable : store.opened.contains key.id && (store.table.key? key.slot).isSome <;>
    simp only [setValue, withDenied, hwritable] <;> rfl

/-- A key within the denied ones is refused. -/
theorem openKey_withDenied_of_within {root : RootKey} {path : Text}
    (h : liesWithin slots (canonicalPath root path) = true) :
    (store.withDenied slots).openKey root path =
      (.error (.backend (accessDenied (canonicalPath root path))), store.withDenied slots) := by
  have hdenied : (store.withDenied slots).isDenied (slotOf (canonicalPath root path)) = true := h
  exact openKey_of_denied hdenied

/-- Every other key is opened as without denied keys. -/
theorem openKey_withDenied_of_not_within (hfree : store.denied = []) {root : RootKey}
    {path : Text} (h : liesWithin slots (canonicalPath root path) = false) :
    (store.withDenied slots).openKey root path =
      ((store.openKey root path).1, (store.openKey root path).2.withDenied slots) := by
  have hdenied : (store.withDenied slots).isDenied (slotOf (canonicalPath root path)) = false := h
  have hallowed : store.isDenied (slotOf (canonicalPath root path)) = false := by
    simp [isDenied, hfree]
  rw [openKey_of_allowed hdenied, openKey_of_allowed hallowed]
  rfl

/-- The second store has carried out the calls of the first one that are not
about denied keys, and holds the key of the first one unless it is denied. -/
structure Withholds (store store' : MemoryStore) (held held' : Option KeyHandle) : Prop where
  free : store.Holds store.log held
  withheld : ∃ behind : MemoryStore, store' = behind.withDenied slots ∧
    behind.Holds (store.log.filter fun op => !liesWithin slots op.path) held'
  held : held'.map KeyHandle.path =
    (held.map KeyHandle.path).filter fun path => !liesWithin slots path

variable {slots} {store} {store' : MemoryStore} {held held' : Option KeyHandle}

theorem withholds_empty : Withholds slots {} (withDenied slots {}) none none :=
  ⟨holds_empty, ⟨{}, rfl, holds_empty⟩, rfl⟩

theorem Withholds.held_of_none (h : Withholds slots store store' none held') : held' = none := by
  simpa using h.held

/-- A key that is held and denied is not held by the second store. -/
theorem Withholds.held_of_within {key : KeyHandle}
    (h : Withholds slots store store' (some key) held')
    (hwithin : liesWithin slots key.path = true) : held' = none := by
  simpa [Option.filter, hwithin] using h.held

/-- Every other key that is held is held by both. -/
theorem Withholds.held_of_not_within {key : KeyHandle}
    (h : Withholds slots store store' (some key) held')
    (hwithin : liesWithin slots key.path = false) :
    ∃ key', held' = some key' ∧ key'.path = key.path := by
  simpa [Option.filter, hwithin] using h.held

/-- Close the key that is held, if there is one. -/
def release (store : MemoryStore) : Option KeyHandle → MemoryStore
  | none => store
  | some key => store.closeKey key

/-- Both close the key that they hold. -/
theorem Withholds.release (h : Withholds slots store store' held held') :
    Withholds slots (store.release held) (store'.release held') none none := by
  cases held with
  | none =>
      obtain rfl := h.held_of_none
      exact h
  | some key =>
      have hfree := h.free.closeKey
      have hlog := hfree.log
      obtain ⟨behind, rfl, hbehind⟩ := h.withheld
      cases hwithin : liesWithin slots key.path with
      | true =>
          obtain rfl := h.held_of_within hwithin
          refine ⟨hlog ▸ hfree, ⟨behind, rfl, ?_⟩, rfl⟩
          rw [MemoryStore.release, hlog]
          simpa [StoreOp.path, hwithin] using hbehind
      | false =>
          obtain ⟨key', rfl, hpath⟩ := h.held_of_not_within hwithin
          refine ⟨hlog ▸ hfree, ⟨behind.closeKey key', closeKey_withDenied slots behind key', ?_⟩,
            rfl⟩
          have hclosed := hbehind.closeKey
          rw [MemoryStore.release, hlog]
          simpa [StoreOp.path, hwithin, hpath] using hclosed

/-- A key that is closed is logged as closed. -/
theorem Holds.log_release {log : List StoreOp} (h : store.Holds log held) :
    (store.release held).log = log ++ held.toList.map fun key => .closeKey key.path := by
  cases held with
  | none => simpa [MemoryStore.release] using h.log
  | some key => exact h.closeKey.log

/-- A key within the denied ones is opened by the first store alone. -/
theorem Withholds.refused (h : Withholds slots store store' none none) {root : RootKey}
    {path : Text} (hwithin : liesWithin slots (canonicalPath root path) = true) :
    ∃ key opened, store.openKey root path = (.ok key, opened) ∧
      store'.openKey root path =
        (.error (.backend (accessDenied (canonicalPath root path))), store') ∧
      opened.log = store.log ++ [.openKey (canonicalPath root path)] ∧
      Withholds slots opened store' (some key) none := by
  obtain ⟨key, opened, hopen, hpath, hholds⟩ := h.free.openKey root path
  obtain ⟨behind, rfl, hbehind⟩ := h.withheld
  refine ⟨key, opened, hopen, openKey_withDenied_of_within slots behind hwithin,
    hpath ▸ hholds.log, ⟨hholds.log ▸ hholds, ⟨behind, rfl, ?_⟩, ?_⟩⟩
  · rw [hholds.log]
    simpa [StoreOp.path, hpath, hwithin] using hbehind
  · simp [Option.filter, hpath, hwithin]

/-- Every other key is opened by both. -/
theorem Withholds.opened (h : Withholds slots store store' none none) {root : RootKey}
    {path : Text} (hwithin : liesWithin slots (canonicalPath root path) = false) :
    ∃ key opened key' opened', store.openKey root path = (.ok key, opened) ∧
      store'.openKey root path = (.ok key', opened') ∧
      opened.log = store.log ++ [.openKey (canonicalPath root path)] ∧
      Withholds slots opened opened' (some key) (some key') := by
  obtain ⟨key, opened, hopen, hpath, hholds⟩ := h.free.openKey root path
  obtain ⟨behind, rfl, hbehind⟩ := h.withheld
  obtain ⟨key', opened', hopen', hpath', hholds'⟩ := hbehind.openKey root path
  have hboth := openKey_withDenied_of_not_within slots behind hbehind.denied hwithin
  rw [hopen'] at hboth
  refine ⟨key, opened, key', _, hopen, hboth, hpath ▸ hholds.log,
    ⟨hholds.log ▸ hholds, ⟨opened', rfl, ?_⟩, ?_⟩⟩
  · rw [hholds.log]
    simpa [StoreOp.path, hpath, hpath', hwithin] using hholds'
  · simp [Option.filter, hpath, hpath', hwithin]

/-- A value of a key that only the first store holds. -/
theorem Withholds.setAlone {key : KeyHandle} (h : Withholds slots store store' (some key) none)
    (name : Option Text) (type : ValueType) (data : Bytes) :
    ∃ written, store.setValue key name type data = (.ok (), written) ∧
      written.log = store.log ++ [.setValue key.path name type data] ∧
      Withholds slots written store' (some key) none := by
  obtain ⟨written, hset, hholds⟩ := h.free.setValue name type data
  obtain ⟨behind, rfl, hbehind⟩ := h.withheld
  have hwithin : liesWithin slots key.path = true := by
    simpa [Option.filter] using h.held
  refine ⟨written, hset, hholds.log, ⟨hholds.log ▸ hholds, ⟨behind, rfl, ?_⟩, h.held⟩⟩
  rw [hholds.log]
  simpa [StoreOp.path, hwithin] using hbehind

/-- A value of a key that both hold. -/
theorem Withholds.setBoth {key key' : KeyHandle}
    (h : Withholds slots store store' (some key) (some key')) (name : Option Text)
    (type : ValueType) (data : Bytes) :
    ∃ written written', store.setValue key name type data = (.ok (), written) ∧
      store'.setValue key' name type data = (.ok (), written') ∧
      written.log = store.log ++ [.setValue key.path name type data] ∧
      Withholds slots written written' (some key) (some key') := by
  obtain ⟨written, hset, hholds⟩ := h.free.setValue name type data
  obtain ⟨behind, rfl, hbehind⟩ := h.withheld
  obtain ⟨written', hset', hholds'⟩ := hbehind.setValue name type data
  have hboth := setValue_withDenied slots behind key' name type data
  rw [hset'] at hboth
  obtain ⟨hpath, hwithin⟩ : key'.path = key.path ∧ liesWithin slots key.path = false := by
    have hheld := h.held
    cases hwithin : liesWithin slots key.path <;> simp_all [Option.filter]
  refine ⟨written, _, hset, hboth, hholds.log, ⟨hholds.log ▸ hholds, ⟨written', rfl, ?_⟩, h.held⟩⟩
  rw [hholds.log]
  simpa [StoreOp.path, hwithin, hpath] using hholds'

end MemoryStore

end RegistryText
