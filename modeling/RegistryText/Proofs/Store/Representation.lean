import RegistryText.Proofs.Store.Paths
import RegistryText.Proofs.Store.Requests

/-!
# The representation of a store

Every request leaves a store with a table in which each key stands in the slot of its
path, below a root, together with its ancestors, and with values that have different
names (`KeyTable.IsTree`); and with handles that are numbered without gaps and whose keys
are there (`IssuingStore.Kept`).  The handles that come with requests need not be the
store's own for that: setting a value changes no path and closing a handle changes no key.

In the order of slots **a key stands behind all its ancestors** (`IsTree.mem_front`),
since the slot of an ancestor is a beginning of the slot of the key.
-/

namespace RegistryText

/-- A value with the name, or an old one. -/
theorem mem_setStoredValue {name : Option Text} {type : ValueType} {data : Bytes}
    {values : List StoredValue} {value : StoredValue}
    (h : value ∈ setStoredValue name type data values) :
    value.name = name ∨ ∃ old ∈ values, value.name = old.name := by
  induction values with
  | nil => exact Or.inl (congrArg StoredValue.name (List.mem_singleton.mp h))
  | cons first rest ih =>
      unfold setStoredValue at h
      split at h
      next =>
        rcases List.mem_cons.mp h with rfl | h
        · exact Or.inr ⟨first, List.mem_cons_self, rfl⟩
        · exact Or.inr ⟨value, List.mem_cons_of_mem _ h, rfl⟩
      next =>
        rcases List.mem_cons.mp h with rfl | h
        · exact Or.inr ⟨_, List.mem_cons_self, rfl⟩
        · rcases ih h with hname | ⟨old, hold, hname⟩
          · exact Or.inl hname
          · exact Or.inr ⟨old, List.mem_cons_of_mem _ hold, hname⟩

/-- Different names stay different when a value is set. -/
theorem pairwise_setStoredValue {name : Option Text} {type : ValueType} {data : Bytes}
    {values : List StoredValue}
    (h : values.Pairwise fun v w => sameValueName v.name w.name = false) :
    (setStoredValue name type data values).Pairwise fun v w =>
      sameValueName v.name w.name = false := by
  induction values with
  | nil => exact List.pairwise_singleton _ _
  | cons first rest ih =>
      obtain ⟨hfirst, hrest⟩ := List.pairwise_cons.mp h
      unfold setStoredValue
      split
      next => exact List.pairwise_cons.mpr ⟨hfirst, hrest⟩
      next hne =>
        refine List.pairwise_cons.mpr ⟨?_, ih hrest⟩
        intro value hvalue
        rcases mem_setStoredValue hvalue with hname | ⟨old, hold, hname⟩
        · rw [hname]
          exact Bool.eq_false_iff.mpr hne
        · rw [hname]
          exact hfirst old hold

namespace KeyTable

variable {table : KeyTable}

/-- A sorted table of keys in the slots of their paths, with all their ancestors and with
values of different names. -/
structure IsTree (table : KeyTable) : Prop where
  sorted : table.Sorted
  slot_eq : ∀ entry ∈ table, entry.1 = slotOf entry.2.path
  rooted : ∀ entry ∈ table, ∃ (root : RootKey) (components : List Text),
    (∀ c ∈ components, IsComponent c) ∧ entry.2.path = extendPath root.name components
  ancestors : ∀ entry ∈ table, ∀ above below, entry.2.path = above ++ '\\' :: below →
    slotOf above ∈ table.slots
  names : ∀ entry ∈ table, entry.2.values.Pairwise fun v w =>
    sameValueName v.name w.name = false

theorem isTree_nil : IsTree [] :=
  ⟨List.Pairwise.nil, by simp, by simp, by simp, by simp⟩

/-- A key is created with its ancestors. -/
theorem IsTree.ensureAll (h : table.IsTree) (root : RootKey) (path : Text) :
    (table.ensureAll (canonicalPaths root path)).IsTree := by
  -- a created key has a path down to the opened one
  have hcreated : ∀ p ∈ canonicalPaths root path, ∃ taken left,
      pathComponents path = taken ++ left ∧ (∀ c ∈ taken, IsComponent c) ∧
      p = extendPath root.name taken := by
    intro p hp
    obtain ⟨taken, left, hsplit, htaken⟩ := mem_pathsDown.mp hp
    refine ⟨taken, left, hsplit, fun c hc => ?_, htaken⟩
    have hmem : c ∈ pathComponents path := by
      rw [hsplit]
      exact List.mem_append_left _ hc
    exact isComponent_of_mem hmem
  refine ⟨h.sorted.ensureAll _, ?_, ?_, ?_, ?_⟩
  · intro entry hentry
    rcases mem_ensureAll hentry with ⟨p, hp, rfl⟩ | hentry
    · rfl
    · exact h.slot_eq entry hentry
  · intro entry hentry
    rcases mem_ensureAll hentry with ⟨p, hp, rfl⟩ | hentry
    · obtain ⟨taken, -, -, hcomponents, rfl⟩ := hcreated p hp
      exact ⟨root, taken, hcomponents, rfl⟩
    · exact h.rooted entry hentry
  · intro entry hentry above below hpath
    refine mem_slots_ensureAll.mpr ?_
    rcases mem_ensureAll hentry with ⟨p, hp, rfl⟩ | hentry
    · obtain ⟨taken, left, hsplit, hcomponents, rfl⟩ := hcreated p hp
      obtain ⟨fewer, others, rfl, rfl⟩ := ancestor_of_extendPath hcomponents hpath
      refine Or.inl (List.mem_map_of_mem (mem_pathsDown.mpr ⟨fewer, others ++ left, ?_, rfl⟩))
      rw [hsplit, List.append_assoc]
    · exact Or.inr (h.ancestors entry hentry above below hpath)
  · intro entry hentry
    rcases mem_ensureAll hentry with ⟨p, hp, rfl⟩ | hentry
    · exact List.Pairwise.nil
    · exact h.names entry hentry

/-- Setting a value changes no path. -/
theorem IsTree.setValue (h : table.IsTree) (slot : Text) (name : Option Text) (type : ValueType)
    (data : Bytes) : (KeyTable.setValue slot name type data table).IsTree := by
  refine ⟨h.sorted.setValue _ _ _ _, ?_, ?_, ?_, ?_⟩
  · intro entry hentry
    obtain ⟨old, hold, hslot, hpath, -⟩ := mem_setValue hentry
    rw [hslot, hpath]
    exact h.slot_eq old hold
  · intro entry hentry
    obtain ⟨old, hold, -, hpath, -⟩ := mem_setValue hentry
    rw [hpath]
    exact h.rooted old hold
  · intro entry hentry above below habove
    obtain ⟨old, hold, -, hpath, -⟩ := mem_setValue hentry
    rw [slots_setValue]
    exact h.ancestors old hold above below (hpath ▸ habove)
  · intro entry hentry
    obtain ⟨old, hold, -, -, hvalues | hvalues⟩ := mem_setValue hentry
    · rw [hvalues]
      exact h.names old hold
    · rw [hvalues]
      exact pairwise_setStoredValue (h.names old hold)

/-- A slot that comes before that of an entry is taken in front of the entry. -/
theorem Sorted.mem_front {front back : KeyTable} {entry : Text × StoredKey} {slot : Text}
    (h : Sorted (front ++ entry :: back)) (hslot : slot ∈ slots (front ++ entry :: back))
    (hbefore : Text.before slot entry.1 = true) : slot ∈ slots front := by
  rw [Sorted, slots, List.map_append, List.map_cons] at h
  obtain ⟨-, hback, -⟩ := List.pairwise_append.mp h
  obtain ⟨hbehind, -⟩ := List.pairwise_cons.mp hback
  rw [slots, List.map_append, List.map_cons] at hslot
  rcases List.mem_append.mp hslot with hfront | hrest
  · exact hfront
  · -- otherwise the entry would come before itself
    have hself : Text.before entry.1 entry.1 = true := by
      rcases List.mem_cons.mp hrest with rfl | hmem
      · exact hbefore
      · exact Text.before_trans (hbehind slot hmem) hbefore
    rw [Text.before_irrefl] at hself
    cases hself

/-- **A key stands behind its ancestors.** -/
theorem IsTree.mem_front {front back : KeyTable} {entry : Text × StoredKey}
    (h : IsTree (front ++ entry :: back)) {above below : Text}
    (hpath : entry.2.path = above ++ '\\' :: below) : slotOf above ∈ slots front := by
  have hmem : entry ∈ front ++ entry :: back := List.mem_append_right _ List.mem_cons_self
  refine h.sorted.mem_front (h.ancestors entry hmem above below hpath) ?_
  rw [h.slot_eq entry hmem, hpath]
  exact slotOf_ancestor_before above below

/-- The key of a slot that is taken. -/
theorem IsTree.exists_key (h : table.IsTree) {front : KeyTable} (hsub : ∀ e ∈ front, e ∈ table)
    {slot : Text} (hslot : slot ∈ slots front) :
    ∃ key ∈ front.map (·.2), slotOf key.path = slot := by
  obtain ⟨entry, hentry, rfl⟩ := List.mem_map.mp hslot
  exact ⟨entry.2, List.mem_map_of_mem hentry, (h.slot_eq entry (hsub entry hentry)).symm⟩

end KeyTable

namespace IssuingStore

/-- The table is a tree, the open handles and the issued ones were numbered from zero, and
the keys of issued handles are in the table. -/
structure Kept (s : IssuingStore) : Prop where
  tree : s.store.table.IsTree
  opened : ∀ id ∈ s.store.opened, id < s.store.nextId
  issued : s.issued.map KeyHandle.id = List.range s.store.nextId
  present : ∀ key ∈ s.issued, key.slot = slotOf key.path ∧ key.slot ∈ s.store.table.slots

theorem kept_empty : Kept {} :=
  ⟨KeyTable.isTree_nil, by simp, rfl, by simp⟩

/-- **What every request preserves.** -/
theorem Kept.serve {s : IssuingStore} (h : s.Kept) (request : StoreRequest) :
    (s.serve request).Kept := by
  have hchange := change_serve s request
  generalize s.serve request = s' at hchange ⊢
  cases hchange with
  | unchanged => exact h
  | denied path slot => exact ⟨h.tree, h.opened, h.issued, h.present⟩
  | opened root path hallowed =>
      refine ⟨h.tree.ensureAll root path, ?_, ?_, ?_⟩
      · intro id hid
        rcases List.mem_cons.mp hid with rfl | hid
        · exact Nat.lt_succ_self _
        · exact Nat.lt_succ_of_lt (h.opened id hid)
      · rw [List.map_append, h.issued, List.range_succ]
        rfl
      · intro key hkey
        rcases List.mem_append.mp hkey with hkey | hkey
        · obtain ⟨hslot, hpresent⟩ := h.present key hkey
          exact ⟨hslot, KeyTable.mem_slots_ensureAll.mpr (Or.inr hpresent)⟩
        · obtain rfl := List.mem_singleton.mp hkey
          refine ⟨rfl, KeyTable.mem_slots_ensureAll.mpr (Or.inl ?_)⟩
          exact List.mem_map_of_mem (canonicalPath_mem root path)
  | written key name type data hopen hpresent =>
      refine ⟨h.tree.setValue _ _ _ _, h.opened, h.issued, ?_⟩
      intro issued hissued
      rw [KeyTable.slots_setValue]
      exact h.present issued hissued
  | closed key hopen =>
      exact ⟨h.tree, fun id hid => h.opened id (List.mem_of_mem_erase hid), h.issued, h.present⟩

theorem Kept.serveAll {s : IssuingStore} (h : s.Kept) (requests : List StoreRequest) :
    (s.serveAll requests).Kept := by
  induction requests generalizing s with
  | nil => exact h
  | cons request requests ih => exact ih (h.serve request)

/-- What holds of a store and of the handles it has issued. -/
structure WellFormed (s : IssuingStore) : Prop where
  /-- Every key is in the slot of its path. -/
  slots : ∀ entry ∈ s.store.table, entry.1 = entry.2.path.lowerCase
  /-- Every path is the full name of a root with components behind it. -/
  rooted : ∀ key ∈ s.store.keys, ∃ (root : RootKey) (components : List Text),
    (∀ c ∈ components, IsComponent c) ∧ key.path = extendPath root.name components
  /-- With a key there are all its ancestors. -/
  ancestors : ∀ key ∈ s.store.keys, ∀ above below, key.path = above ++ '\\' :: below →
    ∃ ancestor ∈ s.store.keys, slotOf ancestor.path = slotOf above
  /-- A key has at most one default value. -/
  default : ∀ key ∈ s.store.keys, key.values.Pairwise fun v w => v.name = none → w.name ≠ none
  /-- No two names of a key's values are the same up to ASCII case. -/
  names : ∀ key ∈ s.store.keys, key.values.Pairwise fun v w =>
    ∀ a ∈ v.name, ∀ b ∈ w.name, a.sameIgnoringAsciiCase b = false
  /-- The open handles have been issued. -/
  opened : ∀ id ∈ s.store.opened, id < s.store.nextId
  /-- Each number is issued once. -/
  issued : s.issued.map KeyHandle.id = List.range s.store.nextId
  /-- The key of every issued handle is there. -/
  present : ∀ key ∈ s.issued, ∃ stored ∈ s.store.keys, slotOf stored.path = slotOf key.path
  /-- The keys are listed in strictly increasing order of slots. -/
  increasing : (s.store.keys.map fun key => slotOf key.path).Pairwise fun a b =>
    Text.before a b = true
  /-- Every key is listed behind all its ancestors. -/
  behind : ∀ front key back, s.store.keys = front ++ key :: back →
    ∀ above below, key.path = above ++ '\\' :: below →
      ∃ ancestor ∈ front, slotOf ancestor.path = slotOf above

theorem Kept.wellFormed {s : IssuingStore} (h : s.Kept) : s.WellFormed where
  slots := h.tree.slot_eq
  rooted := by
    intro key hkey
    obtain ⟨entry, hentry, rfl⟩ := List.mem_map.mp hkey
    exact h.tree.rooted entry hentry
  ancestors := by
    intro key hkey above below hpath
    obtain ⟨entry, hentry, rfl⟩ := List.mem_map.mp hkey
    exact h.tree.exists_key (fun _ he => he) (h.tree.ancestors entry hentry above below hpath)
  default := by
    intro key hkey
    obtain ⟨entry, hentry, rfl⟩ := List.mem_map.mp hkey
    refine (h.tree.names entry hentry).imp fun hdiffer hv hw => ?_
    rw [hv, hw] at hdiffer
    cases hdiffer
  names := by
    intro key hkey
    obtain ⟨entry, hentry, rfl⟩ := List.mem_map.mp hkey
    refine (h.tree.names entry hentry).imp fun hdiffer a hv b hw => ?_
    rw [hv, hw] at hdiffer
    exact hdiffer
  opened := h.opened
  issued := h.issued
  present := by
    intro key hkey
    obtain ⟨hslot, hpresent⟩ := h.present key hkey
    rw [← hslot]
    exact h.tree.exists_key (fun _ he => he) hpresent
  increasing := by
    have hslots : s.store.keys.map (fun key => slotOf key.path) = s.store.table.slots := by
      rw [MemoryStore.keys, List.map_map]
      exact List.map_congr_left fun entry hentry => (h.tree.slot_eq entry hentry).symm
    rw [hslots]
    exact h.tree.sorted
  behind := by
    intro front key back hkeys above below hpath
    obtain ⟨front', rest, htable, rfl, hrest⟩ := List.map_eq_append_iff.mp hkeys
    obtain ⟨entry, back', rfl, rfl, -⟩ := List.map_eq_cons_iff.mp hrest
    have htree := h.tree
    rw [htable] at htree
    exact htree.exists_key (fun _ he => List.mem_append_left _ he) (htree.mem_front hpath)

/-- **A store that is reached by requests is well formed**, with handles of its own or
not. -/
theorem wellFormed_serveAll (requests : List StoreRequest) :
    (IssuingStore.serveAll {} requests).WellFormed := by
  have hkept : (IssuingStore.serveAll {} requests).Kept := kept_empty.serveAll requests
  exact hkept.wellFormed

/-- Other keys may stand between a key and its ancestor. -/
example : (IssuingStore.serveAll {} [.openKey .users "A\\c".toList,
      .openKey .users "a-b".toList]).store.keys.map StoredKey.path =
    ["HKEY_USERS".toList, "HKEY_USERS\\A".toList, "HKEY_USERS\\a-b".toList,
      "HKEY_USERS\\A\\c".toList] := by
  decide +kernel

end IssuingStore

end RegistryText
