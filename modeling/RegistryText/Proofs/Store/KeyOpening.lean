import RegistryText.Proofs.Store.KeyNames
import RegistryText.Proofs.Store.Representation

/-!
# Opening keys among denied ones

A key is denied when some request denied it or a key above it, which is said by components
(`DeniedBy`): a denied `Locked` is above `Locked\Sub` and not above `LockedOut`.  Opening fails
just for the denied keys, and then changes nothing.  Otherwise it adds the missing keys among
the key and its ancestors, and nothing else (`Opens`).

**What is denied stays uncreated** (`noneCreated_serveAll`): an ancestor of a key that is opened is
not denied either, since what is denied above the ancestor is above the key.
-/

namespace RegistryText

/-! ### Slots below slots -/

theorem slotCovers_trans {above between slot : Text} (h : slotCovers above between = true)
    (h' : slotCovers between slot = true) : slotCovers above slot = true := by
  rw [slotCovers_iff] at h h' ⊢
  rcases h with rfl | ⟨below, rfl⟩
  · exact h'
  · rcases h' with rfl | ⟨below', rfl⟩
    · exact Or.inr ⟨below, rfl⟩
    · exact Or.inr ⟨below ++ '\\' :: below', by simp⟩

/-- A path covers those that are made of it by adding components. -/
theorem slotCovers_extendPath (path : Text) (components : List Text) :
    slotCovers path (extendPath path components) = true := by
  rw [slotCovers_iff]
  cases components with
  | nil => exact Or.inl (extendPath_nil path)
  | cons component components => exact Or.inr ⟨_, extendPath_cons_eq path component components⟩

/-- A key lies below its ancestors. -/
theorem slotCovers_canonicalPath {root : RootKey} {path p : Text}
    (h : p ∈ canonicalPaths root path) :
    slotCovers (slotOf p) (slotOf (canonicalPath root path)) = true := by
  obtain ⟨taken, left, hsplit, rfl⟩ := mem_pathsDown.mp h
  rw [canonicalPath, hsplit, extendPath_append, slotOf_extendPath (extendPath root.name taken) left]
  exact slotCovers_extendPath _ _

/-! ### The paths down to a key -/

/-- Each of the paths down to a path is longer than those before it. -/
theorem pathsDown_pairwise (path : Text) (components : List Text) :
    (pathsDown path components).Pairwise fun p q => p.length < q.length := by
  induction components generalizing path with
  | nil => exact List.pairwise_singleton _ _
  | cons component components ih =>
      refine List.pairwise_cons.mpr ⟨?_, ih _⟩
      intro q hq
      obtain ⟨taken, left, -, rfl⟩ := mem_pathsDown.mp hq
      simp only [extendPath, List.flatMap_cons, List.length_append, List.length_cons]
      omega

/-- No two of the keys down to a key share a slot. -/
theorem canonicalPaths_pairwise (root : RootKey) (path : Text) :
    (canonicalPaths root path).Pairwise fun p q => slotOf p ≠ slotOf q := by
  have hslots := pathsDown_pairwise root.name.lowerCase (foldedComponents path)
  rw [foldedComponents, ← map_slotOf_pathsDown, List.pairwise_map] at hslots
  refine hslots.imp ?_
  intro p q hshorter hsame
  rw [hsame] at hshorter
  exact Nat.lt_irrefl _ hshorter

namespace KeyTable

variable {table : KeyTable} {entry : Text × StoredKey}

theorem sublist_ensure (slot path : Text) (table : KeyTable) :
    table.Sublist (ensure slot path table) := by
  induction table with
  | nil => exact List.nil_sublist _
  | cons entry rest ih =>
      obtain ⟨taken, key⟩ := entry
      unfold ensure
      split
      · exact List.Sublist.refl _
      · split
        · exact List.sublist_cons_self _ _
        · exact ih.cons_cons _

/-- Keys that exist stay as they are and in their order. -/
theorem sublist_ensureAll (table : KeyTable) (paths : List Text) :
    table.Sublist (table.ensureAll paths) := by
  induction paths generalizing table with
  | nil => exact List.Sublist.refl _
  | cons path paths ih => exact (sublist_ensure _ _ _).trans (ih _)

/-- Creating a key adds it if its slot is free. -/
theorem mem_ensure_iff (h : table.Sorted) {slot path : Text} :
    entry ∈ ensure slot path table ↔
      entry ∈ table ∨ (slot ∉ table.slots ∧ entry = (slot, ⟨path, []⟩)) := by
  constructor
  · intro hentry
    by_cases hslot : slot ∈ table.slots
    · rw [ensure_of_mem h hslot] at hentry
      exact Or.inl hentry
    · rcases mem_ensure hentry with hcreated | hold
      · exact Or.inr ⟨hslot, hcreated⟩
      · exact Or.inl hold
  · intro hentry
    rcases hentry with hold | ⟨hslot, rfl⟩
    · exact (sublist_ensure slot path table).mem hold
    · have htaken : slot ∈ (ensure slot path table).slots := mem_slots_ensure.mpr (Or.inl rfl)
      obtain ⟨created, hmem, hcreated⟩ := List.mem_map.mp htaken
      rcases mem_ensure hmem with rfl | hold
      · exact hmem
      · exact absurd (List.mem_map.mpr ⟨created, hold, hcreated⟩) hslot

/-- **Creating keys with different slots adds those whose slots are free.** -/
theorem mem_ensureAll_iff (h : table.Sorted) {paths : List Text}
    (hpaths : paths.Pairwise fun p q => slotOf p ≠ slotOf q) :
    entry ∈ table.ensureAll paths ↔
      entry ∈ table ∨
        ∃ p ∈ paths, slotOf p ∉ table.slots ∧ entry = (slotOf p, ⟨p, []⟩) := by
  induction paths generalizing table with
  | nil => simp [ensureAll]
  | cons path paths ih =>
      obtain ⟨hfirst, hrest⟩ := List.pairwise_cons.mp hpaths
      have hcons : table.ensureAll (path :: paths) =
          (ensure (slotOf path) path table).ensureAll paths := rfl
      have hsorted : (ensure (slotOf path) path table).Sorted := h.ensure
      -- the slot of the first path is none of those of the others
      have hfree : ∀ p ∈ paths, (slotOf p ∉ (ensure (slotOf path) path table).slots ↔
          slotOf p ∉ table.slots) := by
        intro p hp
        rw [mem_slots_ensure]
        simp [Ne.symm (hfirst p hp)]
      rw [hcons, ih hsorted hrest, mem_ensure_iff h]
      constructor
      · intro hentry
        rcases hentry with (hold | ⟨hslot, rfl⟩) | ⟨p, hp, hslot, rfl⟩
        · exact Or.inl hold
        · exact Or.inr ⟨path, List.mem_cons_self, hslot, rfl⟩
        · exact Or.inr ⟨p, List.mem_cons_of_mem _ hp, (hfree p hp).mp hslot, rfl⟩
      · intro hentry
        rcases hentry with hold | ⟨p, hp, hslot, rfl⟩
        · exact Or.inl (Or.inl hold)
        · rcases List.mem_cons.mp hp with rfl | hp
          · exact Or.inl (Or.inr ⟨hslot, rfl⟩)
          · exact Or.inr ⟨p, hp, (hfree p hp).mpr hslot, rfl⟩

/-- The keys that creating adds, said without slots. -/
theorem IsTree.mem_keys_ensureAll_iff (h : table.IsTree) {root : RootKey} {path : Text}
    {key : StoredKey} :
    key ∈ (table.ensureAll (canonicalPaths root path)).map (·.2) ↔
      key ∈ table.map (·.2) ∨
        ∃ taken, taken <+: pathComponents path ∧ key = ⟨extendPath root.name taken, []⟩ ∧
          ∀ old ∈ table.map (·.2), slotOf old.path ≠ slotOf key.path := by
  -- a slot is free if it is that of no key
  have hfree : ∀ slot, slot ∉ table.slots ↔ ∀ old ∈ table.map (·.2), slotOf old.path ≠ slot := by
    intro slot
    constructor
    · intro hslot old hold heq
      obtain ⟨entry, hentry, rfl⟩ := List.mem_map.mp hold
      exact hslot (List.mem_map.mpr ⟨entry, hentry, (h.slot_eq entry hentry).trans heq⟩)
    · intro hold hslot
      obtain ⟨entry, hentry, hentrySlot⟩ := List.mem_map.mp hslot
      exact hold entry.2 (List.mem_map_of_mem hentry)
        ((h.slot_eq entry hentry).symm.trans hentrySlot)
  constructor
  · intro hkey
    obtain ⟨entry, hentry, rfl⟩ := List.mem_map.mp hkey
    rcases (mem_ensureAll_iff h.sorted (canonicalPaths_pairwise root path)).mp hentry with
      hold | ⟨p, hp, hslot, rfl⟩
    · exact Or.inl (List.mem_map_of_mem hold)
    · obtain ⟨taken, left, hsplit, rfl⟩ := mem_pathsDown.mp hp
      exact Or.inr ⟨taken, ⟨left, hsplit.symm⟩, rfl, (hfree _).mp hslot⟩
  · intro hkey
    rcases hkey with hold | ⟨taken, ⟨left, hsplit⟩, rfl, hslot⟩
    · exact ((sublist_ensureAll table _).map _).mem hold
    · have hp : extendPath root.name taken ∈ canonicalPaths root path :=
        mem_pathsDown.mpr ⟨taken, left, hsplit.symm, rfl⟩
      have hentry := (mem_ensureAll_iff h.sorted (canonicalPaths_pairwise root path)).mpr
        (Or.inr ⟨_, hp, (hfree _).mpr hslot, rfl⟩)
      exact List.mem_map_of_mem hentry

end KeyTable

/-! ### Denied keys -/

/-- The path that a request denies. -/
def StoreRequest.denies? : StoreRequest → Option Text
  | deny path => some path
  | openKey _ _ | setValue _ _ _ _ | closeKey _ => none

/-- Requests deny a key when one of them denies a path that has the root of the key and, up to
case, components with which those of the key begin. -/
def DeniedBy (requests : List StoreRequest) (root : RootKey) (path : Text) : Prop :=
  ∃ d above, .deny d ∈ requests ∧ RootKey.split? d = some (root, above) ∧
    (pathComponents above).map Text.lowerCase <+: (pathComponents path).map Text.lowerCase

theorem mem_filterMap_denies? {requests : List StoreRequest} {d : Text} :
    d ∈ requests.filterMap StoreRequest.denies? ↔ .deny d ∈ requests := by
  rw [List.mem_filterMap]
  constructor
  · intro h
    obtain ⟨request, hrequest, hdenies⟩ := h
    cases request with
    | deny path =>
        obtain rfl := Option.some.inj hdenies
        exact hrequest
    | openKey | setValue | closeKey => cases hdenies
  · intro h
    exact ⟨_, h, rfl⟩

namespace IssuingStore

/-- A request adds the slot of the path that it denies. -/
theorem denied_serve_eq (s : IssuingStore) (request : StoreRequest) :
    (s.serve request).store.denied = s.store.denied ++ slotsOf request.denies?.toList := by
  cases request with
  | deny path =>
      have hserve : (s.serve (.deny path)).store = s.store.deny path := rfl
      rw [hserve, MemoryStore.deny]
      cases hslot : slotOfPath? path <;> simp [slotsOf, StoreRequest.denies?, hslot]
  | openKey root path =>
      rw [denied_serve s (by simp)]
      simp [slotsOf, StoreRequest.denies?]
  | setValue key name type data =>
      rw [denied_serve s (by simp)]
      simp [slotsOf, StoreRequest.denies?]
  | closeKey key =>
      rw [denied_serve s (by simp)]
      simp [slotsOf, StoreRequest.denies?]

/-- **The denied slots are those of the paths that requests denied.** -/
theorem denied_serveAll (s : IssuingStore) (requests : List StoreRequest) :
    (s.serveAll requests).store.denied =
      s.store.denied ++ slotsOf (requests.filterMap StoreRequest.denies?) := by
  induction requests generalizing s with
  | nil => simp [serveAll, slotsOf]
  | cons request requests ih =>
      have hcons : s.serveAll (request :: requests) = (s.serve request).serveAll requests := rfl
      rw [hcons, ih, denied_serve_eq, List.append_assoc, slotsOf, slotsOf, slotsOf,
        ← List.filterMap_append]
      cases hdenies : request.denies? <;> simp [hdenies]

/-- **A store refuses the keys that requests denied.** -/
theorem isDenied_serveAll_iff {requests : List StoreRequest} {root : RootKey} {path : Text} :
    (serveAll {} requests).store.isDenied (slotOf (canonicalPath root path)) = true ↔
      DeniedBy requests root path := by
  have hdenied := denied_serveAll {} requests
  rw [List.nil_append] at hdenied
  rw [MemoryStore.isDenied, hdenied]
  simp only [slotsOf, List.any_eq_true, List.mem_filterMap]
  constructor
  · intro h
    obtain ⟨slot, ⟨d, hd, hslot⟩, hcovers⟩ := h
    obtain ⟨⟨root', above⟩, hsplit, rfl⟩ := Option.map_eq_some_iff.mp hslot
    obtain ⟨rfl, hprefix⟩ := slotCovers_canonicalPath_iff.mp hcovers
    exact ⟨d, above, mem_filterMap_denies?.mp (List.mem_filterMap.mpr hd), hsplit, hprefix⟩
  · intro h
    obtain ⟨d, above, hd, hsplit, hprefix⟩ := h
    refine ⟨_, ⟨d, List.mem_filterMap.mp (mem_filterMap_denies?.mpr hd), slotOfPath?_eq hsplit⟩, ?_⟩
    exact slotCovers_canonicalPath_iff.mpr ⟨rfl, hprefix⟩

/-! ### What stays uncreated -/

/-- Below a slot there are no keys in a table that are not in another one, with the same
spelling. -/
def NoneCreated (slot : Text) (table table' : KeyTable) : Prop :=
  ∀ entry ∈ table', slotCovers slot entry.1 = true →
    ∃ old ∈ table, old.1 = entry.1 ∧ old.2.path = entry.2.path

theorem NoneCreated.refl (slot : Text) (table : KeyTable) : NoneCreated slot table table :=
  fun entry hentry _ => ⟨entry, hentry, rfl, rfl⟩

theorem NoneCreated.trans {slot : Text} {table table' table'' : KeyTable}
    (h : NoneCreated slot table table') (h' : NoneCreated slot table' table'') :
    NoneCreated slot table table'' := by
  intro entry hentry hcovers
  obtain ⟨between, hbetween, hslot, hpath⟩ := h' entry hentry hcovers
  obtain ⟨old, hold, hslot', hpath'⟩ := h between hbetween (hslot ▸ hcovers)
  exact ⟨old, hold, hslot'.trans hslot, hpath'.trans hpath⟩

/-- No request creates a key below a denied slot. -/
theorem noneCreated_serve {s : IssuingStore} {slot : Text} (hslot : slot ∈ s.store.denied)
    (request : StoreRequest) :
    NoneCreated slot s.store.table (s.serve request).store.table := by
  have hchange := change_serve s request
  generalize s.serve request = s' at hchange ⊢
  cases hchange with
  | unchanged => exact .refl _ _
  | denied path slot' => exact .refl _ _
  | opened root path hallowed =>
      intro entry hentry hcovers
      rcases KeyTable.mem_ensureAll hentry with ⟨p, hp, rfl⟩ | hold
      · -- what covers an ancestor covers the key, which is not denied
        have hdenied : s.store.isDenied (slotOf (canonicalPath root path)) = true :=
          List.any_eq_true.mpr ⟨slot, hslot, slotCovers_trans hcovers (slotCovers_canonicalPath hp)⟩
        rw [hallowed] at hdenied
        cases hdenied
      · exact ⟨entry, hold, rfl, rfl⟩
  | written key name type data hopen hpresent =>
      intro entry hentry hcovers
      obtain ⟨old, hold, hsame, hpath, -⟩ := KeyTable.mem_setValue hentry
      exact ⟨old, hold, hsame.symm, hpath.symm⟩
  | closed key hopen => exact .refl _ _

/-- **No later requests create a key below a denied slot.** -/
theorem noneCreated_serveAll {s : IssuingStore} {slot : Text} (hslot : slot ∈ s.store.denied)
    (later : List StoreRequest) :
    NoneCreated slot s.store.table (s.serveAll later).store.table := by
  induction later generalizing s with
  | nil => exact .refl _ _
  | cons request later ih =>
      have hstays : slot ∈ (s.serve request).store.denied := by
        rw [denied_serve_eq]
        exact List.mem_append_left _ hslot
      exact (noneCreated_serve hslot request).trans (ih hstays)

/-! ### Opening -/

/-- What a store makes of opening a key: it issues the handle of the key, with a number that it has
not issued before, and adds the missing keys among the key and its ancestors, without values and
in the spelling of the path. -/
structure Opens (s : IssuingStore) (root : RootKey) (path : Text) (key : KeyHandle)
    (opened : MemoryStore) : Prop where
  named : key.path = canonicalPath root path
  fresh : ∀ issued ∈ s.issued, issued.id ≠ key.id
  keys : ∀ stored, stored ∈ opened.keys ↔
    stored ∈ s.store.keys ∨
      ∃ taken, taken <+: pathComponents path ∧ stored = ⟨extendPath root.name taken, []⟩ ∧
        ∀ old ∈ s.store.keys, slotOf old.path ≠ slotOf stored.path
  kept : s.store.keys.Sublist opened.keys
  present : ∀ taken, taken <+: pathComponents path →
    (opened.key? (extendPath root.name taken)).isSome = true
  handles : opened.opened = key.id :: s.store.opened
  denied : opened.denied = s.store.denied
  log : opened.log = s.store.log ++ [.openKey key.path]

theorem Kept.opens {s : IssuingStore} (h : s.Kept) {root : RootKey} {path : Text}
    (hallowed : s.store.isDenied (slotOf (canonicalPath root path)) = false) :
    ∃ key opened, s.store.openKey root path = (.ok key, opened) ∧ Opens s root path key opened := by
  refine ⟨_, _, MemoryStore.openKey_of_allowed hallowed, rfl, ?_, ?_, ?_, ?_, rfl, rfl, rfl⟩
  · intro issued hissued hsame
    have hid : issued.id ∈ s.issued.map KeyHandle.id := List.mem_map_of_mem hissued
    rw [h.issued, hsame] at hid
    exact Nat.lt_irrefl _ (List.mem_range.mp hid)
  · intro stored
    exact h.tree.mem_keys_ensureAll_iff
  · exact (KeyTable.sublist_ensureAll _ _).map _
  · intro taken htaken
    obtain ⟨left, hsplit⟩ := htaken
    have hcomponents : ∀ c ∈ taken, IsComponent c := by
      intro c hc
      apply isComponent_of_mem
      rw [← hsplit]
      exact List.mem_append_left left hc
    have hp : extendPath root.name taken ∈ canonicalPaths root path :=
      mem_pathsDown.mpr ⟨taken, left, hsplit.symm, rfl⟩
    rw [MemoryStore.key?, slotOfPath?_extendPath root hcomponents]
    exact KeyTable.isSome_key?_iff.mpr
      (KeyTable.mem_slots_ensureAll.mpr (Or.inl (List.mem_map_of_mem hp)))

/-- A key of the store has the canonical path that its path is resolved to. -/
theorem Kept.path_eq {s : IssuingStore} (h : s.Kept) {entry : Text × StoredKey}
    (hentry : entry ∈ s.store.table) {root : RootKey} {below : Text}
    (hsplit : RootKey.split? entry.2.path = some (root, below)) :
    entry.2.path = canonicalPath root below := by
  obtain ⟨root', components, hcomponents, hpath⟩ := h.tree.rooted entry hentry
  obtain ⟨below', hsplit', rfl⟩ := split?_extendPath root' hcomponents
  rw [hpath, hsplit'] at hsplit
  obtain ⟨rfl, rfl⟩ := Prod.mk.inj (Option.some.inj hsplit)
  exact hpath

/-- **Opening respects denials and only adds missing keys.** -/
theorem openKey_among_denied (requests : List StoreRequest) (root : RootKey) (path : Text) :
    ((∃ cause, ((serveAll {} requests).store.openKey root path).1 = .error cause) ↔
        DeniedBy requests root path) ∧
      (DeniedBy requests root path →
        (serveAll {} requests).store.openKey root path =
          (.error (.backend (accessDenied (canonicalPath root path))),
            (serveAll {} requests).store)) ∧
      (¬DeniedBy requests root path → ∃ key opened,
        (serveAll {} requests).store.openKey root path = (.ok key, opened) ∧
          Opens (serveAll {} requests) root path key opened) ∧
      (DeniedBy requests root path → ∀ (later : List StoreRequest),
        ∀ stored ∈ ((serveAll {} requests).serveAll later).store.keys, ∀ below,
          RootKey.split? stored.path = some (root, below) →
          (pathComponents path).map Text.lowerCase <+: (pathComponents below).map Text.lowerCase →
            ∃ old ∈ (serveAll {} requests).store.keys, old.path = stored.path) := by
  have hkept : (serveAll {} requests).Kept := kept_empty.serveAll requests
  have hrefused : DeniedBy requests root path →
      (serveAll {} requests).store.openKey root path =
        (.error (.backend (accessDenied (canonicalPath root path))),
          (serveAll {} requests).store) := fun hdenied =>
    MemoryStore.openKey_of_denied (isDenied_serveAll_iff.mpr hdenied)
  have hopened : ¬DeniedBy requests root path → ∃ key opened,
      (serveAll {} requests).store.openKey root path = (.ok key, opened) ∧
        Opens (serveAll {} requests) root path key opened := by
    intro hallowed
    apply hkept.opens
    rw [← isDenied_serveAll_iff] at hallowed
    exact Bool.eq_false_iff.mpr hallowed
  refine ⟨⟨?_, ?_⟩, hrefused, hopened, ?_⟩
  · intro hfails
    obtain ⟨cause, hcause⟩ := hfails
    apply Classical.byContradiction
    intro hallowed
    obtain ⟨key, opened, hopen, -⟩ := hopened hallowed
    rw [hopen] at hcause
    cases hcause
  · intro hdenied
    exact ⟨_, congrArg Prod.fst (hrefused hdenied)⟩
  · intro hdenied later stored hstored below hsplit hprefix
    obtain ⟨entry, hentry, rfl⟩ := List.mem_map.mp hstored
    have hlater : ((serveAll {} requests).serveAll later).Kept := hkept.serveAll later
    have hpath := hlater.path_eq hentry hsplit
    obtain ⟨slot, hslot, hcovers⟩ := List.any_eq_true.mp (isDenied_serveAll_iff.mpr hdenied)
    have hbelow : slotCovers slot entry.1 = true := by
      rw [hlater.tree.slot_eq entry hentry, hpath]
      exact slotCovers_trans hcovers (slotCovers_canonicalPath_iff.mpr ⟨rfl, hprefix⟩)
    obtain ⟨old, hold, -, hsame⟩ := noneCreated_serveAll hslot later entry hentry hbelow
    exact ⟨old.2, List.mem_map_of_mem hold, hsame⟩

/-- A key that is denied in another case when it has a key below it. -/
def lockedRequests : List StoreRequest :=
  [.openKey .localMachine "Locked\\Old".toList, .deny "hklm\\\\LOCKED\\".toList]

/-- What is below the denied key is refused, the key that is there included, and a key whose name
only begins like it is opened. -/
theorem openKey_among_denied_locked :
    DeniedBy lockedRequests .localMachine "locked\\Old\\x".toList ∧
      ((serveAll {} lockedRequests).store.openKey .localMachine "locked\\Old\\x".toList).2 =
        (serveAll {} lockedRequests).store ∧
      ¬DeniedBy lockedRequests .localMachine "LockedOut".toList ∧
      (∃ key opened, (serveAll {} lockedRequests).store.openKey .localMachine "LockedOut".toList =
        (.ok key, opened) ∧
          Opens (serveAll {} lockedRequests) .localMachine "LockedOut".toList key opened) := by
  have hdenied : DeniedBy lockedRequests .localMachine "locked\\Old\\x".toList :=
    ⟨_, _, List.mem_cons_of_mem _ List.mem_cons_self, rfl, by decide +kernel⟩
  have hallowed : ¬DeniedBy lockedRequests .localMachine "LockedOut".toList := by
    rw [← isDenied_serveAll_iff]
    decide +kernel
  obtain ⟨-, hrefused, -⟩ := openKey_among_denied lockedRequests .localMachine
    "locked\\Old\\x".toList
  obtain ⟨-, -, hopened, -⟩ := openKey_among_denied lockedRequests .localMachine
    "LockedOut".toList
  exact ⟨hdenied, congrArg Prod.snd (hrefused hdenied), hallowed, hopened hallowed⟩

end IssuingStore

end RegistryText
