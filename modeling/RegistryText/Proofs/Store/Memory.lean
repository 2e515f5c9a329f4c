import RegistryText.Store.Memory

/-!
# Keys in memory

A store in memory without denied keys carries out every call of an importer
that respects handles: it opens each key and writes to the key that it holds.
What carries this is that the slot of the open key is in the table
(`mem_slots_ensureAll`), and stays there when values are set (`Serves`).

A call is either carried out or refused and without effect.  Which of them it is, and what it
then answers, is said once for opening a key (`openKey_of_allowed`, `openKey_of_denied`) and once
for setting a value (`setValue_of_open`, `setValue_of_refused`).
-/

namespace RegistryText

namespace KeyTable

/-- The slots of a table. -/
def slots (table : KeyTable) : List Text :=
  table.map fun entry => entry.1

theorem isSome_key?_iff {table : KeyTable} {slot : Text} :
    (table.key? slot).isSome = true ↔ slot ∈ table.slots := by
  simp [key?, slots, List.find?_isSome]

/-- A slot that is taken has a key. -/
theorem exists_key?_of_mem {table : KeyTable} {slot : Text} (h : slot ∈ table.slots) :
    ∃ stored, table.key? slot = some stored :=
  Option.isSome_iff_exists.mp (isSome_key?_iff.mpr h)

/-- The key that a slot has stands in the table. -/
theorem mem_of_key? {table : KeyTable} {slot : Text} {stored : StoredKey}
    (h : table.key? slot = some stored) : (slot, stored) ∈ table := by
  obtain ⟨entry, hfind, rfl⟩ := Option.map_eq_some_iff.mp h
  have hslot : entry.1 = slot := by simpa using List.find?_some hfind
  rw [← hslot]
  exact List.mem_of_find?_eq_some hfind

/-- Creating a key adds its slot. -/
theorem mem_slots_ensure {slot path s : Text} {table : KeyTable} :
    s ∈ (ensure slot path table).slots ↔ s = slot ∨ s ∈ table.slots := by
  induction table with
  | nil => simp [ensure, slots]
  | cons entry rest ih =>
      obtain ⟨taken, key⟩ := entry
      unfold ensure
      split
      next htaken => simp [slots, htaken]
      split
      · simp [slots]
      · simp only [slots, List.map_cons, List.mem_cons] at ih ⊢
        rw [ih]
        exact or_left_comm

theorem mem_slots_ensureAll {paths : List Text} {s : Text} {table : KeyTable} :
    s ∈ (table.ensureAll paths).slots ↔ s ∈ paths.map slotOf ∨ s ∈ table.slots := by
  induction paths generalizing table with
  | nil => simp [ensureAll]
  | cons path paths ih =>
      have hcons : table.ensureAll (path :: paths) =
          (ensure (slotOf path) path table).ensureAll paths := rfl
      rw [hcons, ih, mem_slots_ensure, List.map_cons, List.mem_cons, or_left_comm, or_assoc]

/-- Setting a value leaves the slots alone. -/
theorem slots_setValue (slot : Text) (name : Option Text) (type : ValueType) (data : Bytes)
    (table : KeyTable) : (setValue slot name type data table).slots = table.slots := by
  induction table with
  | nil => rfl
  | cons entry rest ih =>
      obtain ⟨taken, key⟩ := entry
      unfold setValue
      split
      · rfl
      · exact congrArg (taken :: ·) ih

end KeyTable

/-- The canonical path of a key is one of those down to it. -/
theorem canonicalPath_mem (root : RootKey) (path : Text) :
    canonicalPath root path ∈ canonicalPaths root path := by
  have hdown : ∀ (components : List Text) (front : Text),
      extendPath front components ∈ pathsDown front components := by
    intro components
    induction components with
    | nil => intro front; simp [extendPath, pathsDown]
    | cons component components ih =>
        intro front
        have hstep : extendPath front (component :: components) =
            extendPath (extendPath front [component]) components := by
          simp [extendPath]
        rw [hstep]
        exact List.mem_cons_of_mem _ (ih _)
  exact hdown _ _

namespace MemoryStore

/-- A denied key is refused, and nothing changes. -/
theorem openKey_of_denied {store : MemoryStore} {root : RootKey} {path : Text}
    (h : store.isDenied (slotOf (canonicalPath root path)) = true) :
    store.openKey root path =
      (.error (.backend ("access denied: ".toList ++ canonicalPath root path)), store) := by
  rw [openKey]
  exact if_pos h

/-- Every other key is opened: it and the keys above it are there then. -/
theorem openKey_of_allowed {store : MemoryStore} {root : RootKey} {path : Text}
    (h : store.isDenied (slotOf (canonicalPath root path)) = false) :
    store.openKey root path =
      (.ok ⟨store.nextId, slotOf (canonicalPath root path), canonicalPath root path⟩,
       { store with
         table := store.table.ensureAll (canonicalPaths root path)
         opened := store.nextId :: store.opened
         nextId := store.nextId + 1
         log := store.log ++ [.openKey (canonicalPath root path)] }) := by
  simp only [openKey, h, Bool.false_eq_true, if_false]

/-- The store behind a write that it carried out. -/
def withWrite (store : MemoryStore) (key : KeyHandle) (name : Option Text) (type : ValueType)
    (data : Bytes) : MemoryStore :=
  { store with
    table := store.table.setValue key.slot name type data
    log := store.log ++ [.setValue key.path name type data] }

theorem table_withWrite (store : MemoryStore) (key : KeyHandle) (name : Option Text)
    (type : ValueType) (data : Bytes) :
    (store.withWrite key name type data).table =
      store.table.setValue key.slot name type data := rfl

theorem log_withWrite (store : MemoryStore) (key : KeyHandle) (name : Option Text)
    (type : ValueType) (data : Bytes) :
    (store.withWrite key name type data).log =
      store.log ++ [.setValue key.path name type data] := rfl

/-- A write through an open handle is carried out if the key is there. -/
theorem setValue_of_open {store : MemoryStore} {key : KeyHandle}
    (hopen : key.id ∈ store.opened) (hpresent : key.slot ∈ store.table.slots)
    (name : Option Text) (type : ValueType) (data : Bytes) :
    store.setValue key name type data = (.ok (), store.withWrite key name type data) := by
  have hwritable : (store.opened.contains key.id && (store.table.key? key.slot).isSome) = true := by
    rw [Bool.and_eq_true, List.contains_iff_mem]
    exact ⟨hopen, KeyTable.isSome_key?_iff.mpr hpresent⟩
  rw [setValue, if_pos hwritable, withWrite]

/-- Any other write is refused, and nothing changes. -/
theorem setValue_of_refused {store : MemoryStore} {key : KeyHandle}
    (h : ¬(key.id ∈ store.opened ∧ key.slot ∈ store.table.slots)) (name : Option Text)
    (type : ValueType) (data : Bytes) :
    store.setValue key name type data = (.error .keyNotOpen, store) := by
  rw [← List.contains_iff_mem, ← KeyTable.isSome_key?_iff, ← Bool.and_eq_true] at h
  rw [setValue, if_neg h]

/-- The handle of a key has the canonical path of the key and its slot. -/
theorem path_of_openKey {store : MemoryStore} {root : RootKey} {path : Text}
    {key : KeyHandle} (h : (store.openKey root path).1 = .ok key) :
    key.path = canonicalPath root path ∧ key.slot = slotOf key.path := by
  rw [openKey] at h
  split at h
  · cases h
  · cases h
    exact ⟨rfl, rfl⟩

/-- The key that is opened is in the table. -/
theorem mem_slots_of_openKey {store opened : MemoryStore} {root : RootKey} {path : Text}
    {key : KeyHandle} (h : store.openKey root path = (.ok key, opened)) :
    slotOf (canonicalPath root path) ∈ opened.table.slots := by
  cases hdenied : store.isDenied (slotOf (canonicalPath root path)) with
  | true =>
      rw [openKey_of_denied hdenied] at h
      cases h
  | false =>
      rw [openKey_of_allowed hdenied] at h
      cases h
      exact KeyTable.mem_slots_ensureAll.mpr
        (Or.inl (List.mem_map_of_mem (canonicalPath_mem root path)))

/-- The key that is held is open and in the table, and no other one is open. -/
structure Serves (store : MemoryStore) (held : Option KeyHandle) : Prop where
  opened : store.opened = held.toList.map KeyHandle.id
  present : ∀ key ∈ held, key.slot ∈ store.table.slots

variable {store : MemoryStore} {log : List StoreOp}

/-- A key that is not denied is opened. -/
theorem Serves.openKey (h : store.Serves none) {root : RootKey} {path : Text}
    (hallowed : store.isDenied (slotOf (canonicalPath root path)) = false) :
    ∃ opened, store.openKey root path =
        (.ok ⟨store.nextId, slotOf (canonicalPath root path), canonicalPath root path⟩, opened) ∧
      opened.Serves
        (some ⟨store.nextId, slotOf (canonicalPath root path), canonicalPath root path⟩) ∧
      opened.denied = store.denied ∧ opened.nextId = store.nextId + 1 ∧
      opened.log = store.log ++ [.openKey (canonicalPath root path)] := by
  refine ⟨_, openKey_of_allowed hallowed, ⟨?_, ?_⟩, rfl, rfl, rfl⟩
  · simp [h.opened]
  · intro key hkey
    cases hkey
    exact KeyTable.mem_slots_ensureAll.mpr
      (Or.inl (List.mem_map_of_mem (canonicalPath_mem root path)))

/-- A key is opened, or refused without a change. -/
theorem Serves.openKey_cases (h : store.Serves none) {root : RootKey} {path : Text}
    {answer : Except StoreError KeyHandle} {opened : MemoryStore}
    (hopen : store.openKey root path = (answer, opened)) :
    (∃ cause, answer = .error cause ∧ opened = store) ∨
      ∃ key, answer = .ok key ∧ opened.Serves (some key) ∧
        opened.log = store.log ++ [.openKey key.path] := by
  cases hdenied : store.isDenied (slotOf (canonicalPath root path)) with
  | true =>
      rw [openKey_of_denied hdenied] at hopen
      cases hopen
      exact Or.inl ⟨_, rfl, rfl⟩
  | false =>
      obtain ⟨opened', hopen', hserves, -, -, hlog⟩ := h.openKey hdenied
      rw [hopen'] at hopen
      cases hopen
      exact Or.inr ⟨_, rfl, hserves, hlog⟩

/-- The key that is held is closed. -/
theorem Serves.closeKey {key : KeyHandle} (h : store.Serves (some key)) :
    (store.closeKey key).Serves none ∧ (store.closeKey key).denied = store.denied ∧
      (store.closeKey key).nextId = store.nextId ∧
      (store.closeKey key).log = store.log ++ [.closeKey key.path] := by
  have hopened : store.opened = [key.id] := h.opened
  have hclose : store.closeKey key =
      { store with opened := [], log := store.log ++ [.closeKey key.path] } := by
    simp [MemoryStore.closeKey, hopened]
  rw [hclose]
  exact ⟨⟨rfl, by simp⟩, rfl, rfl, rfl⟩

/-- A value of the key that is held is set. -/
theorem Serves.setValue {key : KeyHandle} (h : store.Serves (some key)) (name : Option Text)
    (type : ValueType) (data : Bytes) :
    ∃ written, store.setValue key name type data = (.ok (), written) ∧
      written.Serves (some key) ∧ written.denied = store.denied ∧
      written.nextId = store.nextId ∧
      written.log = store.log ++ [.setValue key.path name type data] := by
  have hopened : store.opened = [key.id] := h.opened
  have hpresent := h.present key rfl
  have hopen : key.id ∈ store.opened := by simp [hopened]
  refine ⟨store.withWrite key name type data, setValue_of_open hopen hpresent name type data,
    ⟨h.opened, ?_⟩, rfl, rfl, rfl⟩
  intro key' hkey'
  cases hkey'
  simpa only [table_withWrite, KeyTable.slots_setValue] using hpresent

/-- A store without denied keys, its log, and the key that is open, which is in
the table. -/
structure Holds (store : MemoryStore) (log : List StoreOp) (held : Option KeyHandle) : Prop where
  denied : store.denied = []
  opened : store.opened = held.toList.map KeyHandle.id
  log : store.log = log
  present : ∀ key ∈ held, key.slot ∈ store.table.slots

theorem holds_empty : Holds {} [] none :=
  ⟨rfl, rfl, rfl, by simp⟩

theorem Holds.serves {held : Option KeyHandle} (h : store.Holds log held) : store.Serves held :=
  ⟨h.opened, h.present⟩

/-- A store that holds a key goes on doing so behind a call that it logs. -/
theorem Holds.logged {store' : MemoryStore} {held held' : Option KeyHandle} {op : StoreOp}
    (h : store.Holds log held) (hserves : store'.Serves held')
    (hdenied : store'.denied = store.denied) (hlog : store'.log = store.log ++ [op]) :
    store'.Holds (log ++ [op]) held' :=
  ⟨hdenied.trans h.denied, hserves.opened, by rw [hlog, h.log], hserves.present⟩

/-- A key is opened. -/
theorem Holds.openKey (h : store.Holds log none) (root : RootKey) (path : Text) :
    ∃ key store', store.openKey root path = (.ok key, store') ∧
      key.path = canonicalPath root path ∧
      store'.Holds (log ++ [.openKey key.path]) (some key) := by
  have hallowed : store.isDenied (slotOf (canonicalPath root path)) = false := by
    simp [isDenied, h.denied]
  obtain ⟨opened, hopen, hserves, hdenied, -, hlog⟩ := h.serves.openKey hallowed
  exact ⟨_, opened, hopen, rfl, h.logged hserves hdenied hlog⟩

/-- The open key is closed. -/
theorem Holds.closeKey {key : KeyHandle} (h : store.Holds log (some key)) :
    (store.closeKey key).Holds (log ++ [.closeKey key.path]) none := by
  obtain ⟨hserves, hdenied, -, hlog⟩ := h.serves.closeKey
  exact h.logged hserves hdenied hlog

/-- A value of the open key is set. -/
theorem Holds.setValue {key : KeyHandle} (h : store.Holds log (some key)) (name : Option Text)
    (type : ValueType) (data : Bytes) :
    ∃ store', store.setValue key name type data = (.ok (), store') ∧
      store'.Holds (log ++ [.setValue key.path name type data]) (some key) := by
  obtain ⟨written, hset, hserves, hdenied, -, hlog⟩ := h.serves.setValue name type data
  exact ⟨written, hset, h.logged hserves hdenied hlog⟩

end MemoryStore

end RegistryText
