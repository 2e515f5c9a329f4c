import RegistryText.Proofs.Store.ClosedHandles
import RegistryText.Proofs.Store.ReplayTwice

/-!
# Setting one value

A value is set through a handle that no request has closed, and through no other one: the key of
an issued handle is never missing, so there is no second reason to refuse a write.  A write that
is carried out touches the one value that has the name, up to ASCII case, or adds it at the end
(`SetsAmong`); every other value, every other key, the handles and the denied keys are left, and
one call is logged (`SetsValue`).

Which spelling the value has is said by the log.  **The values of a key are what the logged
writes to its slot make of no values** (`logged_serveAll`), and of several writes under one name
the first one gives the spelling (`findName_setAll`).
-/

namespace RegistryText

/-! ### Values by name -/

/-- The value that was set is found by its name, with the type and the data. -/
theorem find?_setStoredValue (name : Option Text) (type : ValueType) (data : Bytes)
    (values : List StoredValue) :
    ∃ spelling, (setStoredValue name type data values).find?
      (fun value => sameValueName value.name name) = some ⟨spelling, type, data⟩ := by
  induction values with
  | nil => exact ⟨name, List.find?_cons_of_pos (sameValueName_self name)⟩
  | cons first rest ih =>
      rw [setStoredValue]
      by_cases hfirst : sameValueName first.name name = true
      · rw [if_pos hfirst]
        exact ⟨first.name, List.find?_cons_of_pos hfirst⟩
      · rw [if_neg hfirst]
        obtain ⟨spelling, hfound⟩ := ih
        exact ⟨spelling, by simpa [hfirst] using hfound⟩

/-- A write gives a spelling only to a name that was not there. -/
theorem findName_setStoredValue (w : KeyWrite) (name : Option Text) (values : List StoredValue) :
    ((setStoredValue w.name w.type w.data values).find?
        fun value => sameValueName value.name name).map StoredValue.name =
      ((values.find? fun value => sameValueName value.name name).map StoredValue.name).or
        (if sameValueName w.name name = true then some w.name else none) := by
  induction values with
  | nil =>
      by_cases hw : sameValueName w.name name = true <;> simp [setStoredValue, hw]
  | cons first rest ih =>
      rw [setStoredValue]
      by_cases hfirst : sameValueName first.name name = true
      · by_cases hsame : sameValueName first.name w.name = true <;> simp [hfirst, hsame]
      · by_cases hsame : sameValueName first.name w.name = true
        · -- the first value has the name of the write, which then is another one
          have hother : ¬sameValueName w.name name = true := by
            intro hw
            rw [sameValueName_congr hw] at hsame
            exact hfirst hsame
          simp [hfirst, hsame, hother]
        · simpa [hfirst, hsame] using ih

/-- **The first write of a name gives the spelling**, by induction on the writes. -/
theorem findName_setAll (writes : List KeyWrite) (name : Option Text)
    (values : List StoredValue) :
    ((setAll writes values).find? fun value => sameValueName value.name name).map
        StoredValue.name =
      ((values.find? fun value => sameValueName value.name name).map StoredValue.name).or
        ((writes.find? fun w => sameValueName w.name name).map KeyWrite.name) := by
  induction writes generalizing values with
  | nil => simp [setAll]
  | cons w writes ih =>
      have hcons : setAll (w :: writes) values =
          setAll writes (setStoredValue w.name w.type w.data values) := rfl
      rw [hcons, ih, findName_setStoredValue, Option.or_assoc]
      by_cases hw : sameValueName w.name name = true <;> simp [hw]

/-- A value is set among others: the one that has the name gets the type and the data in its
place, and when none has it there is a new value at the end. -/
inductive SetsAmong (name : Option Text) (type : ValueType) (data : Bytes) :
    List StoredValue → List StoredValue → Prop
  | overwritten (front back : List StoredValue) (old : StoredValue)
      (hname : sameValueName old.name name = true)
      (hothers : ∀ value ∈ front ++ back, sameValueName value.name name = false) :
      SetsAmong name type data (front ++ old :: back) (front ++ ⟨old.name, type, data⟩ :: back)
  | added (values : List StoredValue)
      (hothers : ∀ value ∈ values, sameValueName value.name name = false) :
      SetsAmong name type data values (values ++ [⟨name, type, data⟩])

theorem setsAmong_setStoredValue (name : Option Text) (type : ValueType) (data : Bytes)
    {values : List StoredValue} (h : DistinctNames values) :
    SetsAmong name type data values (setStoredValue name type data values) := by
  induction values with
  | nil => exact .added [] (by simp)
  | cons first rest ih =>
      obtain ⟨hfirst, hrest⟩ := List.pairwise_cons.mp h
      rw [setStoredValue]
      by_cases hname : sameValueName first.name name = true
      · have hothers : ∀ value ∈ [] ++ rest, sameValueName value.name name = false := by
          intro value hvalue
          rw [sameValueName_comm, ← hfirst value hvalue, sameValueName_comm first.name,
            sameValueName_comm name]
          exact (sameValueName_congr hname value.name).symm
        rw [if_pos hname]
        exact .overwritten [] rest first hname hothers
      · rw [if_neg hname]
        have hfirst' : sameValueName first.name name = false := Bool.eq_false_iff.mpr hname
        generalize setStoredValue name type data rest = rest' at ih
        cases ih hrest with
        | overwritten front back old hold hothers =>
            refine .overwritten (first :: front) back old hold ?_
            exact List.forall_mem_cons.mpr ⟨hfirst', hothers⟩
        | added _ hothers =>
            refine .added (first :: rest) ?_
            exact List.forall_mem_cons.mpr ⟨hfirst', hothers⟩

/-! ### Keys -/

/-- Setting a value replaces one entry of a table. -/
theorem KeyTable.exists_setValue {table : KeyTable} {slot : Text} {stored : StoredKey}
    (h : table.key? slot = some stored) (name : Option Text) (type : ValueType) (data : Bytes) :
    ∃ front back, table = front ++ (slot, stored) :: back ∧
      KeyTable.setValue slot name type data table =
        front ++
          (slot, { stored with values := setStoredValue name type data stored.values }) :: back := by
  induction table with
  | nil => cases h
  | cons entry rest ih =>
      obtain ⟨taken, key⟩ := entry
      rw [key?_cons] at h
      rw [setValue]
      by_cases htaken : taken = slot
      · rw [if_pos htaken] at h ⊢
        obtain rfl := Option.some.inj h
        obtain rfl := htaken
        exact ⟨[], rest, rfl, rfl⟩
      · rw [if_neg htaken] at h ⊢
        obtain ⟨front, back, hrest, hset⟩ := ih h
        exact ⟨(taken, key) :: front, back, congrArg _ hrest, congrArg _ hset⟩

/-- The path of a handle names its key. -/
theorem KeyHandle.IsIssued.slotOfPath?_eq {key : KeyHandle} (h : key.IsIssued) :
    slotOfPath? key.path = some key.slot := by
  obtain ⟨store, root, path, hopen⟩ := h
  obtain ⟨hpath, hslot⟩ := MemoryStore.path_of_openKey hopen
  rw [hslot, hpath, slotOfPath?_canonicalPath]

namespace IssuingStore

/-- The values of each key are what the logged writes to its slot make of no values; without a key
there is no such write. -/
def Logged (store : MemoryStore) : Prop :=
  ∀ slot, (store.table.key? slot).elim [] StoredKey.values =
    setAll (KeyMap.writesAt slot store.log) []

/-- A call that is not a write changes no values. -/
theorem Logged.of_values {store store' : MemoryStore} {op : StoreOp} (h : Logged store)
    (hlog : store'.log = store.log ++ [op]) (hop : ∀ slot, op.writeAt? slot = none)
    (hvalues : ∀ slot, (store'.table.key? slot).elim [] StoredKey.values =
      (store.table.key? slot).elim [] StoredKey.values) : Logged store' := by
  intro slot
  have hwrites : KeyMap.writesAt slot [op] = [] := List.filterMap_eq_nil_iff.mpr (by simp [hop])
  rw [hvalues, h slot, hlog, KeyMap.writesAt_append, hwrites, List.append_nil]

/-- A write stays on record. -/
theorem Logged.withWrite {store : MemoryStore} (h : Logged store) {key : KeyHandle}
    (hslot : key.slot = slotOf key.path) (hpresent : key.slot ∈ store.table.slots)
    (name : Option Text) (type : ValueType) (data : Bytes) :
    Logged (store.withWrite key name type data) := by
  intro slot
  rw [MemoryStore.log_withWrite, KeyMap.writesAt_append, setAll_append, ← h slot,
    MemoryStore.table_withWrite, KeyTable.key?_setValue]
  rw [slotOf] at hslot
  by_cases hs : slot = key.slot
  · have hwrite : KeyMap.writesAt slot [.setValue key.path name type data] =
        [⟨name, type, data⟩] := by
      simp [KeyMap.writesAt, StoreOp.writeAt?, hs, hslot]
    obtain ⟨stored, hstored⟩ := KeyTable.exists_key?_of_mem hpresent
    rw [if_pos hs, hwrite, hs, hstored]
    rfl
  · have hwrite : KeyMap.writesAt slot [.setValue key.path name type data] = [] := by
      rw [hslot] at hs
      simp [KeyMap.writesAt, StoreOp.writeAt?, hs]
    rw [if_neg hs, hwrite]
    rfl

/-- A request leaves the writes to each slot on record. -/
theorem Logged.serve {s : IssuingStore} (h : Logged s.store) (hkept : s.Kept)
    {request : StoreRequest} (hissued : ∀ key ∈ request.handle?, key.IsIssued) :
    Logged (s.serve request).store := by
  have hchange := change_serve s request
  generalize s.serve request = s' at hchange ⊢
  cases hchange with
  | unchanged => exact h
  | denied path slot => exact h
  | opened root path hallowed =>
      refine h.of_values rfl (fun _ => rfl) ?_
      intro slot
      rw [KeyTable.key?_ensureAll hkept.tree.sorted]
      cases hkey : s.store.table.key? slot with
      | some stored => rw [KeyMap.foldl_create_of_some hkey]
      | none =>
          rcases KeyMap.foldl_create_of_none hkey (canonicalPaths root path) with
            ⟨hnone, -⟩ | ⟨created, hsome⟩
          · rw [hnone]
          · rw [hsome]
            rfl
  | written key name type data hopen hpresent =>
      exact h.withWrite (hissued key rfl).slot_eq hpresent name type data
  | closed key hopen => exact h.of_values rfl (fun _ => rfl) (fun _ => rfl)

/-- **The log has the writes that made the values.** -/
theorem logged_serveAll {requests : List StoreRequest}
    (hissued : ∀ request ∈ requests, ∀ key ∈ request.handle?, key.IsIssued) :
    Logged (serveAll {} requests).store := by
  induction requests using List.reverseRecOn with
  | nil =>
      intro slot
      rfl
  | append_singleton requests request ih =>
      have hlast := hissued request (List.mem_append_right _ List.mem_cons_self)
      have hlogged := ih fun earlier hearlier => hissued earlier (List.mem_append_left _ hearlier)
      rw [serveAll_concat]
      exact hlogged.serve (kept_empty.serveAll requests) hlast

/-- The name of a value is spelt as in the first logged write of it. -/
theorem Logged.name_value? {store : MemoryStore} (h : Logged store) {slot : Text}
    {stored : StoredKey} (hkey : store.table.key? slot = some stored) (name : Option Text) :
    (stored.value? name).map StoredValue.name =
      ((KeyMap.writesAt slot store.log).find? fun w => sameValueName w.name name).map
        KeyWrite.name := by
  have hvalues := h slot
  rw [hkey] at hvalues
  have hname := findName_setAll (KeyMap.writesAt slot store.log) name []
  rw [← hvalues] at hname
  exact hname

/-! ### One write -/

/-- What a store makes of a write that it carries out. -/
structure SetsValue (store : MemoryStore) (key : KeyHandle) (name : Option Text)
    (type : ValueType) (data : Bytes) (written : MemoryStore) : Prop where
  /-- Every name that is the same finds the type and the data, under the spelling of the first
  logged write of the name to the key. -/
  found : ∃ first, (KeyMap.writesAt key.slot written.log).find?
      (fun w => sameValueName w.name name) = some first ∧
    ∀ other, sameValueName name other = true →
      written.value? key.path other = some ⟨first.name, type, data⟩
  /-- The key of the handle keeps its place and its path, and its other values their order. -/
  keys : ∃ front stored back values, store.key? key.path = some stored ∧
    store.keys = front ++ stored :: back ∧
    written.keys = front ++ { stored with values := values } :: back ∧
    SetsAmong name type data stored.values values
  /-- All other keys are found as they were. -/
  others : ∀ path, slotOfPath? path ≠ slotOfPath? key.path → written.key? path = store.key? path
  log : written.log = store.log ++ [.setValue key.path name type data]
  opened : written.opened = store.opened
  nextId : written.nextId = store.nextId
  denied : written.denied = store.denied

/-- A write through an open handle is carried out. -/
theorem Kept.setValue_of_open {s : IssuingStore} (h : s.Kept) {key : KeyHandle}
    (hkey : key ∈ s.issued) (hopen : key.id ∈ s.store.opened) (name : Option Text)
    (type : ValueType) (data : Bytes) :
    s.store.setValue key name type data = (.ok (), s.store.withWrite key name type data) :=
  MemoryStore.setValue_of_open hopen (h.present key hkey).2 name type data

/-- **What a write through a handle does to a store that has the key**, whichever store issued
the handle. -/
theorem Kept.setsValue_of_present {s : IssuingStore} (h : s.Kept) (hlogged : Logged s.store)
    {key : KeyHandle} (hissued : key.IsIssued) (hpresent : key.slot ∈ s.store.table.slots)
    (name : Option Text) (type : ValueType) (data : Bytes) :
    SetsValue s.store key name type data (s.store.withWrite key name type data) := by
  have hpath : slotOfPath? key.path = some key.slot := hissued.slotOfPath?_eq
  obtain ⟨stored, hstored⟩ := KeyTable.exists_key?_of_mem hpresent
  refine ⟨?_, ?_, ?_, rfl, rfl, rfl, rfl⟩
  · have hwritten : (s.store.withWrite key name type data).table.key? key.slot =
        some { stored with values := setStoredValue name type data stored.values } := by
      rw [MemoryStore.table_withWrite, KeyTable.key?_setValue, if_pos rfl, hstored]
      rfl
    have hvalue : ∀ other, (s.store.withWrite key name type data).value? key.path other =
        (setStoredValue name type data stored.values).find?
          fun value => sameValueName value.name other := by
      intro other
      rw [MemoryStore.value?, MemoryStore.key?, hpath, Option.bind_some, hwritten]
      rfl
    obtain ⟨spelling, hfound⟩ :=
      find?_setStoredValue name type data stored.values
    have hlogged' := hlogged.withWrite hissued.slot_eq hpresent name type data
    have hname := hlogged'.name_value? hwritten name
    rw [StoredKey.value?, hfound] at hname
    obtain ⟨first, hfirst, rfl⟩ := Option.map_eq_some_iff.mp hname.symm
    refine ⟨first, hfirst, ?_⟩
    intro other hother
    simp only [hvalue, ← sameValueName_congr hother, hfound]
  · obtain ⟨front, back, htable, hwritten⟩ := KeyTable.exists_setValue hstored name type data
    have hnames : DistinctNames stored.values := h.tree.names _ (KeyTable.mem_of_key? hstored)
    refine ⟨front.map (·.2), stored, back.map (·.2), _, ?_, ?_, ?_,
      setsAmong_setStoredValue name type data hnames⟩
    · rw [MemoryStore.key?, hpath]
      exact hstored
    · rw [MemoryStore.keys, htable, List.map_append, List.map_cons]
    · rw [MemoryStore.keys, MemoryStore.table_withWrite, hwritten, List.map_append, List.map_cons]
  · intro path hother
    rw [hpath] at hother
    rw [MemoryStore.key?, MemoryStore.key?]
    cases hslot : slotOfPath? path with
    | none => rfl
    | some slot =>
        have hne : slot ≠ key.slot := by
          intro heq
          exact hother (by rw [hslot, heq])
        rw [Option.bind_some, Option.bind_some, MemoryStore.table_withWrite,
          KeyTable.key?_setValue, if_neg hne]

theorem Kept.setsValue {s : IssuingStore} (h : s.Kept) (hlogged : Logged s.store)
    {key : KeyHandle} (hkey : key ∈ s.issued) (hissued : key.IsIssued) (name : Option Text)
    (type : ValueType) (data : Bytes) :
    SetsValue s.store key name type data (s.store.withWrite key name type data) :=
  h.setsValue_of_present hlogged hissued (h.present key hkey).2 name type data

/-- **Setting a value is a precise and atomic update**, through any handle that the store has
issued, behind any requests with handles of this store or of others. -/
theorem setValue_of_issued {requests : List StoreRequest}
    (hissued : ∀ request ∈ requests, ∀ key ∈ request.handle?, key.IsIssued) {key : KeyHandle}
    (hkey : key ∈ (serveAll {} requests).issued) (name : Option Text) (type : ValueType)
    (data : Bytes) :
    (((serveAll {} requests).store.setValue key name type data).1 = .ok () ↔
        ¬ClosedBy requests key) ∧
      (UsesOwn {} requests → (ClosedBy requests key ↔ .closeKey key ∈ requests)) ∧
      (¬ClosedBy requests key →
        SetsValue (serveAll {} requests).store key name type data
          ((serveAll {} requests).store.setValue key name type data).2) ∧
      (ClosedBy requests key →
        (serveAll {} requests).store.setValue key name type data =
          (.error .keyNotOpen, (serveAll {} requests).store)) := by
  have hkept : (serveAll {} requests).Kept := kept_empty.serveAll requests
  have hset : ¬ClosedBy requests key → (serveAll {} requests).store.setValue key name type data =
      (.ok (), (serveAll {} requests).store.withWrite key name type data) := by
    intro hleft
    exact hkept.setValue_of_open hkey ((mem_opened_iff hkey).mpr hleft) name type data
  have hrefused : ClosedBy requests key → (serveAll {} requests).store.setValue key name type data =
      (.error .keyNotOpen, (serveAll {} requests).store) := by
    intro hclosed
    apply MemoryStore.setValue_of_refused
    intro hopen
    exact (mem_opened_iff hkey).mp hopen.1 hclosed
  refine ⟨⟨?_, ?_⟩, fun hown => hown.closedBy_iff key, ?_, hrefused⟩
  · intro hok hclosed
    rw [hrefused hclosed] at hok
    cases hok
  · intro hleft
    rw [hset hleft]
  · intro hleft
    rw [hset hleft]
    exact hkept.setsValue (logged_serveAll hissued) hkey (isIssued_of_mem hkey) name type data

/-- The first handle of a key. -/
def olderHandle : KeyHandle :=
  ⟨0, slotOf "HKEY_USERS\\A".toList, "HKEY_USERS\\A".toList⟩

/-- The second handle of the key, opened in another spelling. -/
def newerHandle : KeyHandle :=
  ⟨1, slotOf "HKEY_USERS\\a".toList, "HKEY_USERS\\a".toList⟩

/-- Two values are set through one handle of a key, which then is closed. -/
def twoHandleRequests : List StoreRequest :=
  [.openKey .users "A".toList, .setValue olderHandle (some "Name".toList) .string [],
    .setValue olderHandle none .binary [1], .openKey .users "a\\".toList, .closeKey olderHandle]

/-- A write through the other handle finds the value under another spelling, and the closed handle
is refused. -/
theorem setValue_of_issued_twoHandles :
    UsesOwn {} twoHandleRequests ∧
      olderHandle ∈ (serveAll {} twoHandleRequests).issued ∧
      newerHandle ∈ (serveAll {} twoHandleRequests).issued ∧
      SetsValue (serveAll {} twoHandleRequests).store newerHandle (some "NAME".toList) .dword [7]
        ((serveAll {} twoHandleRequests).store.setValue newerHandle (some "NAME".toList) .dword
          [7]).2 ∧
      (((serveAll {} twoHandleRequests).store.setValue newerHandle (some "NAME".toList) .dword
          [7]).2.key? newerHandle.path).map StoredKey.values =
        some [⟨some "Name".toList, .dword, [7]⟩, ⟨none, .binary, [1]⟩] ∧
      (serveAll {} twoHandleRequests).store.setValue olderHandle none .dword [7] =
        (.error .keyNotOpen, (serveAll {} twoHandleRequests).store) := by
  have hown : UsesOwn {} twoHandleRequests := by decide +kernel
  have holder : olderHandle ∈ (serveAll {} twoHandleRequests).issued := by decide +kernel
  have hnewer : newerHandle ∈ (serveAll {} twoHandleRequests).issued := by decide +kernel
  obtain ⟨-, hclosed, -, hrefused⟩ :=
    setValue_of_issued hown.isIssued holder none .dword [7]
  obtain ⟨-, hclosed', hset, -⟩ :=
    setValue_of_issued hown.isIssued hnewer (some "NAME".toList) .dword [7]
  have hleft : ¬ClosedBy twoHandleRequests newerHandle := by
    rw [hclosed' hown]
    decide +kernel
  have hgone : ClosedBy twoHandleRequests olderHandle := by
    rw [hclosed hown]
    decide +kernel
  exact ⟨hown, holder, hnewer, hset hleft, by decide +kernel, hrefused hgone⟩

end IssuingStore

end RegistryText
