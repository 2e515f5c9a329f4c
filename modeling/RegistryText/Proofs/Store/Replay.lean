import RegistryText.Proofs.Store.Paths
import RegistryText.Proofs.Store.Requests

/-!
# The log as a record of the store

`KeyMap.replay` builds keys and values from a log alone.  It knows neither handles nor
slots: an opened key is created with all the prefixes of its logged path that end at a
backslash or at the end, and a value is set in the key that the lower case of the logged
path finds.  **Whatever is asked of a store, its keys are those that its log replays**
(`recorded_of_requests`), and its open handles are the opened keys less the closed ones.

What carries this is that a handle of any store has the slot of its path
(`KeyHandle.IsIssued.slot_eq`), so the log, which has the path, says which key was meant.
-/

namespace RegistryText

/-- Whether a key was opened. -/
def StoreOp.isOpenKey : StoreOp → Bool
  | openKey _ => true
  | closeKey _ | setValue _ _ _ _ => false

/-- Whether a handle was closed. -/
def StoreOp.isCloseKey : StoreOp → Bool
  | closeKey _ => true
  | openKey _ | setValue _ _ _ _ => false

/-- The beginnings of a text that end at a separator or at its end, the shortest one
first. -/
def Text.prefixesAt (separator : Char) : Text → List Text
  | [] => [[]]
  | c :: t =>
      (if c = separator then [[]] else []) ++ (prefixesAt separator t).map (c :: ·)

/-- Keys by the lower case of their paths. -/
abbrev KeyMap := Text → Option StoredKey

namespace KeyMap

/-- Create the key of a path without values, unless there is one. -/
def create (map : KeyMap) (path : Text) : KeyMap := fun slot =>
  if slot = path.lowerCase then some ((map slot).getD ⟨path, []⟩) else map slot

/-- Set a value: the first one with the name gets the type and the data, and without one
there is a new value at the end. -/
def overwrite (name : Option Text) (type : ValueType) (data : Bytes)
    (values : List StoredValue) : List StoredValue :=
  match values.findIdx? fun value => sameValueName value.name name with
  | some i => values.modify i fun value => { value with type := type, data := data }
  | none => values ++ [⟨name, type, data⟩]

/-- What a logged call does to the keys. -/
def perform (map : KeyMap) : StoreOp → KeyMap
  | .openKey path => (Text.prefixesAt '\\' path).foldl create map
  | .closeKey _ => map
  | .setValue path name type data => fun slot =>
      if slot = path.lowerCase then
        (map slot).map fun key => { key with values := overwrite name type data key.values }
      else map slot

/-- The keys that a log makes from none. -/
def replay (log : List StoreOp) : KeyMap :=
  log.foldl perform fun _ => none

/-- The last operation of a log is performed last. -/
theorem replay_concat (log : List StoreOp) (op : StoreOp) :
    replay (log ++ [op]) = (replay log).perform op := by
  rw [replay, List.foldl_append]
  rfl

/-- A log overwrites a value as a store does. -/
theorem overwrite_eq (name : Option Text) (type : ValueType) (data : Bytes)
    (values : List StoredValue) :
    overwrite name type data values = setStoredValue name type data values := by
  induction values with
  | nil => rfl
  | cons value rest ih =>
      rw [overwrite, List.findIdx?_cons, setStoredValue]
      by_cases hname : sameValueName value.name name = true
      · simp [hname]
      · rw [← ih, overwrite]
        cases hfind : rest.findIdx? fun value => sameValueName value.name name <;>
          simp [hname]

end KeyMap

/-! ## Prefixes of canonical paths -/

/-- A text without separators stands in front of all the prefixes. -/
theorem Text.prefixesAt_append {separator : Char} {s : Text} (h : separator ∉ s) (t : Text) :
    prefixesAt separator (s ++ t) = (prefixesAt separator t).map (s ++ ·) := by
  induction s with
  | nil => simp
  | cons c s ih =>
      have hc : c ≠ separator := Ne.symm (List.ne_of_not_mem_cons h)
      rw [List.cons_append, prefixesAt, ih (List.not_mem_of_not_mem_cons h), if_neg hc]
      simp

/-- The prefixes of a path are the paths down to it. -/
theorem map_prefixesAt {components : List Text} (h : ∀ c ∈ components, IsComponent c)
    (front : Text) :
    (Text.prefixesAt '\\' (components.flatMap ('\\' :: ·))).map (front ++ ·) =
      pathsDown front components := by
  induction components generalizing front with
  | nil => simp [Text.prefixesAt, pathsDown]
  | cons component components ih =>
      have hrest := ih (fun c hc => h c (List.mem_cons_of_mem _ hc)) (extendPath front [component])
      have hcomponent := (h component List.mem_cons_self).2
      rw [pathsDown, ← hrest, List.flatMap_cons, List.cons_append, Text.prefixesAt,
        Text.prefixesAt_append hcomponent]
      simp [extendPath, Function.comp_def]

/-- The prefixes of the path of a key are the paths of the keys above it, and its own. -/
theorem prefixesAt_canonicalPath (root : RootKey) (path : Text) :
    Text.prefixesAt '\\' (canonicalPath root path) = canonicalPaths root path := by
  rw [canonicalPath, extendPath, Text.prefixesAt_append root.backslash_not_mem_name]
  exact map_prefixesAt (fun _ hc => isComponent_of_mem hc) root.name

/-! ## The keys of a table -/

/-- Creating keys in a table creates them in its map. -/
theorem KeyTable.key?_ensureAll {table : KeyTable} (h : table.Sorted) (paths : List Text) :
    (table.ensureAll paths).key? = paths.foldl KeyMap.create table.key? := by
  induction paths generalizing table with
  | nil => rfl
  | cons path paths ih =>
      have hcreate : (ensure (slotOf path) path table).key? = KeyMap.create table.key? path := by
        funext s
        rw [key?_ensure h, KeyMap.create, slotOf]
        split
        next hs => rw [hs]
        next => rfl
      have hsorted : (ensure (slotOf path) path table).Sorted := h.ensure
      have hrest := ih hsorted
      rw [hcreate] at hrest
      exact hrest

/-- A handle that some store has issued. -/
def KeyHandle.IsIssued (key : KeyHandle) : Prop :=
  ∃ (store : MemoryStore) (root : RootKey) (path : Text), (store.openKey root path).1 = .ok key

/-- A handle has the slot of its path. -/
theorem KeyHandle.IsIssued.slot_eq {key : KeyHandle} (h : key.IsIssued) :
    key.slot = slotOf key.path := by
  obtain ⟨store, root, path, hopen⟩ := h
  exact (MemoryStore.path_of_openKey hopen).2

namespace IssuingStore

/-- The log is a record of the keys and of the open handles. -/
structure Recorded (store : MemoryStore) : Prop where
  /-- The table is a map: its slots are in strictly increasing order. -/
  sorted : store.table.Sorted
  /-- The keys are those that the log replays. -/
  keys : store.table.key? = KeyMap.replay store.log
  /-- As many handles are open as keys were opened, less those that were closed. -/
  handles : store.log.countP StoreOp.isOpenKey =
    store.openCount + store.log.countP StoreOp.isCloseKey

/-- The log of a new store accounts for its keys. -/
theorem recorded_empty : Recorded {} :=
  ⟨List.Pairwise.nil, rfl, rfl⟩

/-- A request leaves the log a record. -/
theorem Recorded.serve {s : IssuingStore} (h : Recorded s.store) {request : StoreRequest}
    (hissued : ∀ key ∈ request.handle?, key.IsIssued) : Recorded (s.serve request).store := by
  obtain ⟨hsorted, hkeys, hhandles⟩ := h
  rw [MemoryStore.openCount] at hhandles
  have hchange := change_serve s request
  generalize s.serve request = s' at hchange ⊢
  cases hchange with
  | unchanged => exact ⟨hsorted, hkeys, hhandles⟩
  | denied path slot => exact ⟨hsorted, hkeys, hhandles⟩
  | opened root path hallowed =>
      refine ⟨hsorted.ensureAll _, ?_, ?_⟩
      · rw [KeyTable.key?_ensureAll hsorted, KeyMap.replay_concat, KeyMap.perform, ← hkeys,
          prefixesAt_canonicalPath]
      · simp only [List.countP_append, List.countP_singleton, StoreOp.isOpenKey,
          StoreOp.isCloseKey, MemoryStore.openCount, List.length_cons, Bool.false_eq_true, if_true,
          if_false]
        omega
  | written key name type data hopen hpresent =>
      refine ⟨hsorted.setValue _ _ _ _, ?_, ?_⟩
      · funext s'
        have hslot : key.slot = key.path.lowerCase := (hissued key rfl).slot_eq
        rw [KeyTable.key?_setValue, KeyMap.replay_concat, KeyMap.perform, ← hkeys, hslot]
        simp only [KeyMap.overwrite_eq]
        split
        next hs => rw [hs]
        next => rfl
      · simp only [List.countP_append, List.countP_singleton, StoreOp.isOpenKey,
          StoreOp.isCloseKey, MemoryStore.openCount, Bool.false_eq_true, if_false]
        omega
  | closed key hopen =>
      refine ⟨hsorted, ?_, ?_⟩
      · rw [KeyMap.replay_concat]
        exact hkeys
      · have herase := List.length_erase_of_mem hopen
        have hpos := List.length_pos_of_mem hopen
        simp only [List.countP_append, List.countP_singleton, StoreOp.isOpenKey,
          StoreOp.isCloseKey, MemoryStore.openCount, Bool.false_eq_true, if_true, if_false]
        omega

/-- **Whatever a store is asked for, its log accounts for its keys.** -/
theorem Recorded.serveAll {s : IssuingStore} (h : Recorded s.store) {requests : List StoreRequest}
    (hissued : ∀ request ∈ requests, ∀ key ∈ request.handle?, key.IsIssued) :
    Recorded (s.serveAll requests).store := by
  induction requests generalizing s with
  | nil => exact h
  | cons request requests ih =>
      have hfirst := h.serve (hissued request List.mem_cons_self)
      exact ih hfirst fun later hlater => hissued later (List.mem_cons_of_mem _ hlater)

/-- **The log of a store is a complete record of it**, after any requests, carried out or
not, with handles that are open, closed or of other stores. -/
theorem recorded_of_requests (requests : List StoreRequest)
    (hissued : ∀ request ∈ requests, ∀ key ∈ request.handle?, key.IsIssued) :
    Recorded (serveAll {} requests).store :=
  recorded_empty.serveAll hissued

/-- The first handle of a store in which a key was opened in a spelling of its own. -/
def foreignHandle : KeyHandle :=
  ⟨0, slotOf (canonicalPath .users "AΣ".toList), canonicalPath .users "AΣ".toList⟩

/-- Requests with a handle of another store: refused, written through and closed twice. -/
def foreignRequests : List StoreRequest :=
  [.deny "HKU\\b".toList, .setValue foreignHandle none .dword [1],
    .openKey .users "X\\\\Y".toList, .openKey .users "b\\c".toList,
    .setValue foreignHandle none .dword [1], .openKey .users "aΣ\\x".toList,
    .setValue foreignHandle (some "N".toList) .string [2],
    .setValue foreignHandle (some "n".toList) .dword [3],
    .closeKey foreignHandle, .closeKey foreignHandle]

theorem recorded_of_requests_foreign :
    foreignHandle.IsIssued ∧ Recorded (serveAll {} foreignRequests).store ∧
      (serveAll {} foreignRequests).store.openCount = 1 ∧
      (serveAll {} foreignRequests).store.log =
        [.openKey "HKEY_USERS\\X\\Y".toList, .openKey "HKEY_USERS\\aΣ\\x".toList,
          .setValue "HKEY_USERS\\AΣ".toList (some "N".toList) .string [2],
          .setValue "HKEY_USERS\\AΣ".toList (some "n".toList) .dword [3],
          .closeKey "HKEY_USERS\\AΣ".toList] := by
  have hforeign : foreignHandle.IsIssued := ⟨{}, .users, "AΣ".toList, rfl⟩
  refine ⟨hforeign, recorded_of_requests foreignRequests ?_, by decide +kernel, by decide +kernel⟩
  intro request hrequest key hkey
  have hused : key = foreignHandle := by
    simp only [foreignRequests, List.mem_cons, List.not_mem_nil, or_false] at hrequest
    rcases hrequest with rfl | rfl | rfl | rfl | rfl | rfl | rfl | rfl | rfl | rfl <;>
      simp_all [StoreRequest.handle?]
  rw [hused]
  exact hforeign

end IssuingStore

end RegistryText
