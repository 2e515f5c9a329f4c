import RegistryText.Proofs.Store.KeyNames
import RegistryText.Proofs.Store.Representation

/-!
# When two paths name the same key

A root is written in full or short, in any case, and between the components of a path and at
its end there may be any number of backslashes.  **Two paths name the same key exactly when they
have the same root and the same components in lower case** (`treatedAlike_iff_components`): such
paths find the same key and the same values, deny the same keys and open the same key, which is
created once; and paths that differ in this do not share a slot.

Two paths of one key may still spell it differently.  A store keeps the spelling of a key that it
creates, so what opening either of them leaves is equal in the slots and in the values
(`KeyTable.contents`), and not in the paths.
-/

namespace RegistryText

namespace KeyTable

/-- The slots of a table with the values of their keys. -/
def contents (table : KeyTable) : List (Text × List StoredValue) :=
  table.map fun entry => (entry.1, entry.2.values)

/-- Creating a key does not depend on its spelling. -/
theorem contents_ensure {table table' : KeyTable} (h : table.contents = table'.contents)
    (slot path path' : Text) :
    (ensure slot path table).contents = (ensure slot path' table').contents := by
  induction table generalizing table' with
  | nil =>
      cases table' with
      | nil => rfl
      | cons entry' rest' => cases h
  | cons entry rest ih =>
      cases table' with
      | nil => cases h
      | cons entry' rest' =>
          obtain ⟨taken, key⟩ := entry
          obtain ⟨taken', key'⟩ := entry'
          obtain ⟨hentry, hrest⟩ := List.cons_eq_cons.mp h
          obtain ⟨rfl, hvalues⟩ : taken = taken' ∧ key.values = key'.values :=
            Prod.mk.inj hentry
          unfold ensure
          by_cases htaken : taken = slot
          · simpa [htaken, contents, hvalues] using hrest
          · by_cases hbefore : slot.before taken = true
            · simpa [htaken, hbefore, contents, hvalues] using hrest
            · simpa [htaken, hbefore, contents, hvalues] using ih hrest

theorem contents_ensureAll {table table' : KeyTable} (h : table.contents = table'.contents)
    {paths paths' : List Text} (hslots : paths.map slotOf = paths'.map slotOf) :
    (table.ensureAll paths).contents = (table'.ensureAll paths').contents := by
  induction paths generalizing table table' paths' with
  | nil =>
      cases paths' with
      | nil => exact h
      | cons path' paths' => cases hslots
  | cons path paths ih =>
      cases paths' with
      | nil => cases hslots
      | cons path' paths' =>
          obtain ⟨hslot, hrest⟩ := List.cons_eq_cons.mp hslots
          have hfirst := contents_ensure h (slotOf path) path path'
          have hlater := ih hfirst hrest
          rw [hslot] at hlater
          calc (table.ensureAll (path :: paths)).contents
              = ((ensure (slotOf path) path table).ensureAll paths).contents := rfl
            _ = ((ensure (slotOf path') path' table').ensureAll paths').contents := by
                rw [hslot]
                exact hlater
            _ = (table'.ensureAll (path' :: paths')).contents := rfl

end KeyTable

/-- Two keys, each given by a root and a path below it, are opened alike. -/
structure OpenedAlike (root : RootKey) (below : Text) (root' : RootKey) (below' : Text) :
    Prop where
  /-- Both are refused, or their handles have the same number and the same slot. -/
  handle : ∀ store : MemoryStore,
    (store.openKey root below).1.toOption.map (fun key => (key.id, key.slot)) =
      (store.openKey root' below').1.toOption.map fun key => (key.id, key.slot)
  /-- They leave the same slots with the same values. -/
  contents : ∀ store : MemoryStore,
    (store.openKey root below).2.table.contents = (store.openKey root' below').2.table.contents
  /-- Behind the one the other creates no key. -/
  once : ∀ requests : List StoreRequest, ∀ opened,
    ((IssuingStore.serveAll {} requests).store.openKey root below).2 = opened →
      (opened.openKey root' below').2.table = opened.table

/-- A store does the same with two paths. -/
structure TreatedAlike (p q : Text) : Prop where
  key : ∀ store : MemoryStore, store.key? p = store.key? q
  value : ∀ (store : MemoryStore) (name : Option Text), store.value? p name = store.value? q name
  deny : ∀ store : MemoryStore, store.deny p = store.deny q
  opened : ∀ root below root' below', RootKey.split? p = some (root, below) →
    RootKey.split? q = some (root', below') → OpenedAlike root below root' below'

/-- Keys with the same slot are opened alike. -/
theorem openedAlike_of_components {root : RootKey} {below below' : Text}
    (h : foldedComponents below = foldedComponents below') :
    OpenedAlike root below root below' := by
  have hslot : slotOf (canonicalPath root below) = slotOf (canonicalPath root below') :=
    slotOf_canonicalPath_inj.mpr ⟨rfl, h⟩
  have hpaths : (canonicalPaths root below).map slotOf = (canonicalPaths root below').map slotOf := by
    have hcomponents : (pathComponents below).map Text.lowerCase =
        (pathComponents below').map Text.lowerCase := h
    rw [canonicalPaths, canonicalPaths, map_slotOf_pathsDown, map_slotOf_pathsDown, hcomponents]
  refine ⟨?_, ?_, ?_⟩
  · intro store
    simp only [MemoryStore.openKey, hslot]
    split <;> rfl
  · intro store
    simp only [MemoryStore.openKey, hslot]
    split
    · rfl
    · exact KeyTable.contents_ensureAll rfl hpaths
  · intro requests opened hopened
    have hkept : (IssuingStore.serveAll {} requests).Kept :=
      IssuingStore.kept_empty.serveAll requests
    have hsorted := hkept.tree.sorted
    generalize (IssuingStore.serveAll {} requests).store = store at hopened hsorted
    cases hdenied : store.isDenied (slotOf (canonicalPath root below)) with
    | true =>
        have hrefused := hdenied
        rw [hslot] at hrefused
        rw [MemoryStore.openKey_of_denied hdenied] at hopened
        rw [← hopened, MemoryStore.openKey_of_denied hrefused]
    | false =>
        rw [MemoryStore.openKey_of_allowed hdenied] at hopened
        have hallowed : opened.isDenied (slotOf (canonicalPath root below')) = false := by
          rw [← hopened, ← hslot]
          exact hdenied
        have htable : opened.table = store.table.ensureAll (canonicalPaths root below) := by
          rw [← hopened]
        have hpresent : ∀ p ∈ canonicalPaths root below', slotOf p ∈ opened.table.slots := by
          intro p hp
          rw [htable, KeyTable.mem_slots_ensureAll, hpaths]
          exact Or.inl (List.mem_map_of_mem hp)
        rw [MemoryStore.openKey_of_allowed hallowed]
        refine KeyTable.ensureAll_of_mem ?_ hpresent
        rw [htable]
        exact hsorted.ensureAll _

/-- **Two paths name the same key exactly when they have the same root and the same components
in lower case.**  They share a slot just then, and just then a store treats them alike.  The
canonical path of a handle is one more path of the key that was opened: it has the root and the
components of the path that opened it, and it finds the key. -/
theorem treatedAlike_iff_components {p q below below' : Text} {root root' : RootKey}
    (hp : RootKey.split? p = some (root, below)) (hq : RootKey.split? q = some (root', below')) :
    (slotOfPath? p = slotOfPath? q ↔
        root = root' ∧
          (pathComponents below).map Text.lowerCase = (pathComponents below').map Text.lowerCase) ∧
      (TreatedAlike p q ↔
        root = root' ∧
          (pathComponents below).map Text.lowerCase = (pathComponents below').map Text.lowerCase) ∧
      ∀ (store opened : MemoryStore) (key : KeyHandle),
        store.openKey root below = (.ok key, opened) →
          slotOfPath? key.path = slotOfPath? p ∧
            (∃ rest, RootKey.split? key.path = some (root, rest) ∧
              pathComponents rest = pathComponents below) ∧
            (opened.key? key.path).isSome = true := by
  have hslots : slotOfPath? p = slotOfPath? q ↔
      root = root' ∧ foldedComponents below = foldedComponents below' := by
    rw [slotOfPath?_eq hp, slotOfPath?_eq hq, Option.some_inj]
    exact slotOf_canonicalPath_inj
  refine ⟨hslots, ⟨?_, ?_⟩, ?_⟩
  · intro h
    -- a store that has nothing else denied shows the slot of a path that it is to deny
    have hdeny := congrArg MemoryStore.denied (h.deny {})
    rw [MemoryStore.deny, MemoryStore.deny, slotOfPath?_eq hp, slotOfPath?_eq hq] at hdeny
    have hslot : slotOf (canonicalPath root below) = slotOf (canonicalPath root' below') := by
      simpa using hdeny
    exact slotOf_canonicalPath_inj.mp hslot
  · intro h
    have hslot := hslots.mpr h
    obtain ⟨rfl, hcomponents⟩ := h
    refine ⟨?_, ?_, ?_, ?_⟩
    · intro store
      rw [MemoryStore.key?, MemoryStore.key?, hslot]
    · intro store name
      rw [MemoryStore.value?, MemoryStore.value?, MemoryStore.key?, MemoryStore.key?, hslot]
    · intro store
      rw [MemoryStore.deny, MemoryStore.deny, hslot]
    · intro root₁ below₁ root₂ below₂ hp₁ hq₂
      obtain ⟨rfl, rfl⟩ := Prod.mk.inj (Option.some.inj (hp.symm.trans hp₁))
      obtain ⟨rfl, rfl⟩ := Prod.mk.inj (Option.some.inj (hq.symm.trans hq₂))
      exact openedAlike_of_components hcomponents
  · intro store opened key hopen
    have hissued : (store.openKey root below).1 = .ok key := congrArg Prod.fst hopen
    have hpath : key.path = canonicalPath root below := (MemoryStore.path_of_openKey hissued).1
    have hslot : slotOfPath? key.path = slotOfPath? p := by
      rw [hpath, slotOfPath?_canonicalPath, slotOfPath?_eq hp]
    obtain ⟨rest, hrest, hcomponents⟩ := split?_canonicalPath root below
    refine ⟨hslot, ⟨rest, hpath ▸ hrest, hcomponents⟩, ?_⟩
    rw [MemoryStore.key?, hslot, slotOfPath?_eq hp]
    exact KeyTable.isSome_key?_iff.mpr (MemoryStore.mem_slots_of_openKey hopen)

/-- A path with a capital I that has two letters in lower case, and with a sigma at the end of a
component. -/
def respelledPath : Text :=
  "hkcu\\\\İ\\ΟΔΟΣ\\Σ\\".toList

/-- Another path of the same key. -/
def plainPath : Text :=
  "HKEY_Current_User\\i\u0307\\οδος\\σ".toList

/-- A key is denied in the one spelling and refused in the other; the canonical path of its handle
names it too. -/
theorem treatedAlike_respelled :
    RootKey.split? respelledPath = some (.currentUser, "\\İ\\ΟΔΟΣ\\Σ\\".toList) ∧
      RootKey.split? plainPath = some (.currentUser, "i\u0307\\οδος\\σ".toList) ∧
      TreatedAlike respelledPath plainPath ∧
      (MemoryStore.deny {} respelledPath).denied = [plainPath.lowerCase] ∧
      slotOfPath? "HKEY_CURRENT_USER\\İ\\ΟΔΟΣ\\Σ".toList = slotOfPath? respelledPath := by
  have hp : RootKey.split? respelledPath = some (.currentUser, "\\İ\\ΟΔΟΣ\\Σ\\".toList) := by
    decide
  have hq : RootKey.split? plainPath = some (.currentUser, "i\u0307\\οδος\\σ".toList) := by
    decide
  obtain ⟨-, halike, hhandle⟩ := treatedAlike_iff_components hp hq
  obtain ⟨hslot, -⟩ := hhandle {} _ _ (MemoryStore.openKey_of_allowed rfl)
  have hpath : canonicalPath .currentUser "\\İ\\ΟΔΟΣ\\Σ\\".toList =
      "HKEY_CURRENT_USER\\İ\\ΟΔΟΣ\\Σ".toList := by decide +kernel
  rw [hpath] at hslot
  exact ⟨hp, hq, halike.mpr ⟨rfl, by decide +kernel⟩, by decide +kernel, hslot⟩

end RegistryText
