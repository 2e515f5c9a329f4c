import RegistryText.Proofs.Store.Memory
import RegistryText.Proofs.Text.Order

/-!
# Tables as maps

A table lists its entries by slot in strictly increasing order: creating a key puts it
where the order wants it, and setting a value changes no slot.  In such a table every
slot has one place, so a table is a map from slots to keys, and the two changes are said
by what they do to the key of a slot (`key?_ensure`, `key?_setValue`) and to an entry
(`mem_ensure`, `mem_setValue`).
-/

namespace RegistryText.KeyTable

variable {table : KeyTable} {entry : Text × StoredKey} {slot path : Text}

/-- The slots are in strictly increasing order. -/
def Sorted (table : KeyTable) : Prop :=
  table.slots.Pairwise fun a b => Text.before a b = true

theorem sorted_cons_iff :
    Sorted (entry :: table) ↔ (∀ s ∈ table.slots, Text.before entry.1 s = true) ∧ table.Sorted :=
  List.pairwise_cons

theorem key?_cons (s : Text) :
    key? (entry :: table) s = if entry.1 = s then some entry.2 else table.key? s := by
  by_cases h : entry.1 = s <;> simp [key?, h]

/-- A slot that is not taken has no key. -/
theorem key?_of_not_mem (h : slot ∉ table.slots) : table.key? slot = none := by
  cases hkey : table.key? slot with
  | none => rfl
  | some key => exact absurd (isSome_key?_iff.mp (by simp [hkey])) h

/-- A slot in front of all others is not taken. -/
theorem not_mem_slots_of_before (h : ∀ s ∈ table.slots, Text.before slot s = true) :
    slot ∉ table.slots := by
  intro hmem
  have hself := h slot hmem
  rw [Text.before_irrefl] at hself
  cases hself

/-- **A sorted table is determined by the keys in its slots.** -/
theorem Sorted.ext {table' : KeyTable} (h : table.Sorted) (h' : table'.Sorted)
    (hkeys : table.key? = table'.key?) : table = table' := by
  -- the first slot of a table is the least one that has a key in it
  have hfirst : ∀ {first first' : Text × StoredKey} {rest rest' : KeyTable},
      Sorted (first' :: rest') → key? (first :: rest) = key? (first' :: rest') →
        ¬Text.before first.1 first'.1 = true := by
    intro first first' rest rest' hsorted hsame hbefore
    have hahead : ∀ s ∈ slots (first' :: rest'), Text.before first.1 s = true := by
      intro s hs
      rcases List.mem_cons.mp hs with rfl | hs
      · exact hbefore
      · exact Text.before_trans hbefore ((sorted_cons_iff.mp hsorted).1 s hs)
    have hnone := key?_of_not_mem (not_mem_slots_of_before hahead)
    rw [← hsame, key?_cons, if_pos rfl] at hnone
    cases hnone
  induction table generalizing table' with
  | nil =>
      cases table' with
      | nil => rfl
      | cons first' rest' =>
          have hnone := congrFun hkeys first'.1
          rw [key?_cons, if_pos rfl] at hnone
          cases hnone
  | cons first rest ih =>
      cases table' with
      | nil =>
          have hnone := congrFun hkeys first.1
          rw [key?_cons, if_pos rfl] at hnone
          cases hnone
      | cons first' rest' =>
          obtain ⟨hahead, hrest⟩ := sorted_cons_iff.mp h
          obtain ⟨hahead', hrest'⟩ := sorted_cons_iff.mp h'
          have hslot : first.1 = first'.1 := by
            refine Classical.byContradiction fun hne => ?_
            rcases Text.before_or_before hne with hbefore | hbefore
            · exact hfirst h' hkeys hbefore
            · exact hfirst h hkeys.symm hbefore
          have hkey := congrFun hkeys first.1
          rw [key?_cons, if_pos rfl, key?_cons, if_pos hslot.symm] at hkey
          have hentry : first = first' := Prod.ext hslot (Option.some.inj hkey)
          have hothers : key? rest = key? rest' := by
            funext s
            by_cases hs : first.1 = s
            · rw [← hs, key?_of_not_mem (not_mem_slots_of_before hahead), hslot,
                key?_of_not_mem (not_mem_slots_of_before hahead')]
            · have hsame := congrFun hkeys s
              rwa [key?_cons, if_neg hs, key?_cons, if_neg (hslot ▸ hs)] at hsame
          rw [hentry, ih hrest hrest' hothers]

/-- **Creating a key keeps the order.** -/
theorem Sorted.ensure (h : table.Sorted) : (KeyTable.ensure slot path table).Sorted := by
  induction table with
  | nil => simp [KeyTable.ensure, Sorted, slots]
  | cons entry rest ih =>
      obtain ⟨taken, key⟩ := entry
      obtain ⟨hahead, hrest⟩ := sorted_cons_iff.mp h
      unfold KeyTable.ensure
      split
      next => exact h
      next hne =>
        split
        next hbefore =>
          refine sorted_cons_iff.mpr ⟨?_, h⟩
          intro s hs
          rcases List.mem_cons.mp hs with rfl | hs
          · exact hbefore
          · exact Text.before_trans hbefore (hahead s hs)
        next hbefore =>
          refine sorted_cons_iff.mpr ⟨?_, ih hrest⟩
          intro s hs
          rcases mem_slots_ensure.mp hs with rfl | hs
          · exact (Text.before_or_before hne).resolve_right hbefore
          · exact hahead s hs

theorem Sorted.ensureAll (h : table.Sorted) (paths : List Text) :
    (table.ensureAll paths).Sorted := by
  induction paths generalizing table with
  | nil => exact h
  | cons path paths ih => exact ih h.ensure

/-- Setting a value keeps the order. -/
theorem Sorted.setValue (h : table.Sorted) (slot : Text) (name : Option Text) (type : ValueType)
    (data : Bytes) : (KeyTable.setValue slot name type data table).Sorted := by
  rw [Sorted, slots_setValue]
  exact h

/-- **Creating a key changes no other slot and no key that exists.** -/
theorem key?_ensure (h : table.Sorted) (s : Text) :
    (ensure slot path table).key? s =
      if s = slot then some ((table.key? slot).getD ⟨path, []⟩) else table.key? s := by
  induction table with
  | nil =>
      by_cases hs : s = slot
      · simp [ensure, key?, hs]
      · simp [ensure, key?, hs, Ne.symm hs]
  | cons entry rest ih =>
      obtain ⟨taken, key⟩ := entry
      obtain ⟨hahead, hrest⟩ := sorted_cons_iff.mp h
      unfold ensure
      split
      next htaken =>
        by_cases hs : s = slot
        · simp [key?_cons, hs, htaken]
        · simp [hs]
      next hne =>
        split
        next hbefore =>
          -- the slot stands in front of all others, so it was free
          have hfree : key? ((taken, key) :: rest) slot = none := by
            refine key?_of_not_mem (not_mem_slots_of_before fun s' hs' => ?_)
            rcases List.mem_cons.mp hs' with rfl | hs'
            · exact hbefore
            · exact Text.before_trans hbefore (hahead s' hs')
          rw [hfree, key?_cons]
          by_cases hs : s = slot
          · simp [hs]
          · simp [hs, Ne.symm hs]
        next =>
          rw [key?_cons, ih hrest, key?_cons, key?_cons]
          by_cases hs : s = slot
          · simp [hs, hne]
          · simp [hs]

/-- A key that exists is not created again. -/
theorem ensure_of_mem (h : table.Sorted) (hslot : slot ∈ table.slots) :
    ensure slot path table = table := by
  induction table with
  | nil => cases hslot
  | cons entry rest ih =>
      obtain ⟨taken, key⟩ := entry
      obtain ⟨hahead, hrest⟩ := sorted_cons_iff.mp h
      unfold ensure
      split
      next => rfl
      next hne =>
        have hlater : slot ∈ slots rest := by
          rcases List.mem_cons.mp hslot with heq | hlater
          · exact absurd heq.symm hne
          · exact hlater
        split
        next hbefore =>
          -- the slot would come before itself
          have hself := Text.before_trans hbefore (hahead slot hlater)
          rw [Text.before_irrefl] at hself
          cases hself
        next => rw [ih hrest hlater]

theorem ensureAll_of_mem {paths : List Text} (h : table.Sorted)
    (hslots : ∀ p ∈ paths, slotOf p ∈ table.slots) : table.ensureAll paths = table := by
  induction paths with
  | nil => rfl
  | cons path paths ih =>
      obtain ⟨hfirst, hrest⟩ := List.forall_mem_cons.mp hslots
      calc table.ensureAll (path :: paths)
          = (ensure (slotOf path) path table).ensureAll paths := rfl
        _ = table.ensureAll paths := by rw [ensure_of_mem h hfirst]
        _ = table := ih hrest

/-- **Setting a value changes the key in its slot alone.** -/
theorem key?_setValue (slot : Text) (name : Option Text) (type : ValueType) (data : Bytes)
    (table : KeyTable) (s : Text) :
    (setValue slot name type data table).key? s =
      if s = slot then
        (table.key? slot).map fun key =>
          { key with values := setStoredValue name type data key.values }
      else table.key? s := by
  induction table with
  | nil => simp [setValue, key?]
  | cons entry rest ih =>
      obtain ⟨taken, key⟩ := entry
      unfold setValue
      split
      next htaken =>
        by_cases hs : s = slot
        · simp [key?_cons, hs, htaken]
        · simp [key?_cons, hs, htaken, Ne.symm hs]
      next hne =>
        rw [key?_cons, ih, key?_cons, key?_cons]
        by_cases hs : s = slot
        · simp [hs, hne]
        · simp [hs]

/-- An entry is an old one or that of the created key. -/
theorem mem_ensure (h : entry ∈ ensure slot path table) :
    entry = (slot, ⟨path, []⟩) ∨ entry ∈ table := by
  induction table with
  | nil => exact Or.inl (List.mem_singleton.mp h)
  | cons first rest ih =>
      obtain ⟨taken, key⟩ := first
      unfold ensure at h
      split at h
      next => exact Or.inr h
      next =>
        split at h
        next => exact (List.mem_cons.mp h)
        next =>
          rcases List.mem_cons.mp h with rfl | h
          · exact Or.inr List.mem_cons_self
          · exact (ih h).imp_right (List.mem_cons_of_mem _)

theorem mem_ensureAll {paths : List Text} (h : entry ∈ table.ensureAll paths) :
    (∃ path ∈ paths, entry = (slotOf path, ⟨path, []⟩)) ∨ entry ∈ table := by
  induction paths generalizing table with
  | nil => exact Or.inr h
  | cons path paths ih =>
      rcases ih h with ⟨created, hcreated, rfl⟩ | hmem
      · exact Or.inl ⟨created, List.mem_cons_of_mem _ hcreated, rfl⟩
      · rcases mem_ensure hmem with rfl | hmem
        · exact Or.inl ⟨path, List.mem_cons_self, rfl⟩
        · exact Or.inr hmem

/-- An entry is an old one, perhaps with the value set. -/
theorem mem_setValue {name : Option Text} {type : ValueType} {data : Bytes}
    (h : entry ∈ setValue slot name type data table) :
    ∃ old ∈ table, entry.1 = old.1 ∧ entry.2.path = old.2.path ∧
      (entry.2.values = old.2.values ∨
        entry.2.values = setStoredValue name type data old.2.values) := by
  induction table with
  | nil => cases h
  | cons first rest ih =>
      obtain ⟨taken, key⟩ := first
      unfold setValue at h
      split at h
      next =>
        rcases List.mem_cons.mp h with rfl | h
        · exact ⟨_, List.mem_cons_self, rfl, rfl, Or.inr rfl⟩
        · exact ⟨entry, List.mem_cons_of_mem _ h, rfl, rfl, Or.inl rfl⟩
      next =>
        rcases List.mem_cons.mp h with rfl | h
        · exact ⟨_, List.mem_cons_self, rfl, rfl, Or.inl rfl⟩
        · obtain ⟨old, hold, hentry⟩ := ih h
          exact ⟨old, List.mem_cons_of_mem _ hold, hentry⟩

end RegistryText.KeyTable
