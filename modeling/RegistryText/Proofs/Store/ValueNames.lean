import RegistryText.Proofs.Store.ValueWrites
import RegistryText.Proofs.Text.AsciiCase

/-!
# Names of values

Two names address one value of a key when what is written under the one name is found under the
other, and a write under the other name overwrites it and adds no value beside it
(`AddressOne`).  **They do so if and only if they are equal up to ASCII case**
(`Writable.addressOne_iff`), and otherwise a write under the one name is not seen under the other.

The keys themselves are told apart in full lower case.  Names that are equal up to ASCII case are
equal in lower case, so the values are told apart at least as finely as keys; the two comparisons
agree on names in which lower case changes no letter outside of ASCII, and on no more than these
in general: a key can have one value named É and another one named é.
-/

namespace RegistryText

/-- A write is not seen under another name. -/
theorem find?_setStoredValue_of_ne {name other : Option Text}
    (h : sameValueName name other = false) (type : ValueType) (data : Bytes)
    (values : List StoredValue) :
    ((setStoredValue name type data values).find? fun value => sameValueName value.name other) =
      values.find? fun value => sameValueName value.name other := by
  induction values with
  | nil => simp [setStoredValue, h]
  | cons first rest ih =>
      rw [setStoredValue]
      by_cases hfirst : sameValueName first.name name = true
      · have hother : sameValueName first.name other = false := by
          rw [sameValueName_comm, ← h, sameValueName_comm name]
          exact sameValueName_congr hfirst other
        simp [hfirst, hother]
      · by_cases hother : sameValueName first.name other = true
        · simp [hfirst, hother]
        · simpa [hfirst, hother] using ih

/-- A write leaves a value of its name. -/
theorem hasName_setStoredValue {name other : Option Text} (h : sameValueName name other = true)
    (type : ValueType) (data : Bytes) (values : List StoredValue) :
    HasName (setStoredValue name type data values) other := by
  obtain ⟨spelling, hfound⟩ := find?_setStoredValue name type data values
  have hname : sameValueName spelling name = true := by simpa using List.find?_some hfound
  rw [sameValueName_congr h] at hname
  exact ⟨_, List.mem_of_find?_eq_some hfound, hname⟩

/-- A write under a name that is there adds no value. -/
theorem length_setStoredValue_of_hasName {values : List StoredValue} {name : Option Text}
    (hdistinct : DistinctNames values) (h : HasName values name) (type : ValueType)
    (data : Bytes) : (setStoredValue name type data values).length = values.length := by
  have hset := setStoredValue_of_hasName (w := ⟨name, type, data⟩) hdistinct h
  rw [hset, List.length_map]

namespace MemoryStore

/-- The values of the key that a path names. -/
def valuesAt (store : MemoryStore) (path : Text) : List StoredValue :=
  (store.key? path).elim [] StoredKey.values

theorem value?_eq_find? (store : MemoryStore) (path : Text) (name : Option Text) :
    store.value? path name =
      (store.valuesAt path).find? fun value => sameValueName value.name name := by
  rw [value?, valuesAt]
  cases store.key? path <;> rfl

/-- The store behind a write to a named value, carried out or not. -/
def write (store : MemoryStore) (key : KeyHandle) (name : Text) (type : ValueType)
    (data : Bytes) : MemoryStore :=
  (store.setValue key (some name) type data).2

/-- Two names are of one value of the key of a handle. -/
structure AddressOne (store : MemoryStore) (key : KeyHandle) (n m : Text) : Prop where
  /-- What is written under the one name is found under the other. -/
  found : ∀ type data, ∃ spelling,
    (store.write key n type data).value? key.path (some m) = some ⟨spelling, type, data⟩
  /-- A write under the other name overwrites it. -/
  overwritten : ∀ type data type' data', ∃ spelling,
    ((store.write key n type data).write key m type' data').value? key.path (some n) =
      some ⟨spelling, type', data'⟩
  /-- The write adds no value. -/
  alone : ∀ type data type' data',
    (((store.write key n type data).write key m type' data').valuesAt key.path).length =
      ((store.write key n type data).valuesAt key.path).length

end MemoryStore

namespace IssuingStore

variable {s : IssuingStore} {key : KeyHandle} {n m : Text}

/-- A store may be written to through one of its handles. -/
structure Writable (s : IssuingStore) (key : KeyHandle) : Prop where
  kept : s.Kept
  mem : key ∈ s.issued
  opened : key.id ∈ s.store.opened
  named : slotOfPath? key.path = some key.slot

theorem writable_serveAll {requests : List StoreRequest}
    (hkey : key ∈ (serveAll {} requests).issued) (hleft : ¬ClosedBy requests key) :
    (serveAll {} requests).Writable key :=
  ⟨kept_empty.serveAll requests, hkey, (mem_opened_iff hkey).mpr hleft,
    (isIssued_of_mem hkey).slotOfPath?_eq⟩

theorem Writable.write_eq (h : s.Writable key) (name : Text) (type : ValueType) (data : Bytes) :
    s.store.write key name type data = s.store.withWrite key (some name) type data := by
  rw [MemoryStore.write, h.kept.setValue_of_open h.mem h.opened]

/-- A write leaves the handle open. -/
theorem Writable.serve (h : s.Writable key) (name : Text) (type : ValueType) (data : Bytes) :
    Writable { s with store := s.store.write key name type data } key := by
  have hkept : Kept { s with store := s.store.write key name type data } :=
    h.kept.serve (.setValue key (some name) type data)
  refine ⟨hkept, h.mem, ?_, h.named⟩
  rw [h.write_eq]
  exact h.opened

/-- What a write makes of the values of its key. -/
theorem Writable.valuesAt_write (h : s.Writable key) (name : Text) (type : ValueType)
    (data : Bytes) :
    (s.store.write key name type data).valuesAt key.path =
      setStoredValue (some name) type data (s.store.valuesAt key.path) := by
  obtain ⟨stored, hstored⟩ := KeyTable.exists_key?_of_mem (h.kept.present key h.mem).2
  rw [h.write_eq, MemoryStore.valuesAt, MemoryStore.valuesAt, MemoryStore.key?, MemoryStore.key?,
    h.named, Option.bind_some, Option.bind_some, MemoryStore.table_withWrite,
    KeyTable.key?_setValue, if_pos rfl, hstored]
  rfl

theorem Writable.distinct (h : s.Writable key) : DistinctNames (s.store.valuesAt key.path) := by
  obtain ⟨stored, hstored⟩ := KeyTable.exists_key?_of_mem (h.kept.present key h.mem).2
  rw [MemoryStore.valuesAt, MemoryStore.key?, h.named, Option.bind_some, hstored]
  exact h.kept.tree.names _ (KeyTable.mem_of_key? hstored)

/-- A write is not seen under a name that differs in more than ASCII case. -/
theorem Writable.value?_write_of_ne (h : s.Writable key)
    (hne : n.sameIgnoringAsciiCase m = false) (type : ValueType) (data : Bytes) :
    (s.store.write key n type data).value? key.path (some m) =
      s.store.value? key.path (some m) := by
  have hname : sameValueName (some n) (some m) = false := hne
  rw [MemoryStore.value?_eq_find?, MemoryStore.value?_eq_find?, h.valuesAt_write]
  exact find?_setStoredValue_of_ne hname type data _

/-- A write is found under a name that is equal up to ASCII case. -/
theorem Writable.value?_write (h : s.Writable key) (hsame : n.sameIgnoringAsciiCase m = true)
    (type : ValueType) (data : Bytes) :
    ∃ spelling, (s.store.write key n type data).value? key.path (some m) =
      some ⟨spelling, type, data⟩ := by
  have hname : sameValueName (some n) (some m) = true := hsame
  obtain ⟨spelling, hfound⟩ :=
    find?_setStoredValue (some n) type data (s.store.valuesAt key.path)
  simp only [sameValueName_congr hname] at hfound
  rw [MemoryStore.value?_eq_find?, h.valuesAt_write]
  exact ⟨spelling, hfound⟩

/-- **Names address one value if and only if they are equal up to ASCII case.** -/
theorem Writable.addressOne_iff (h : s.Writable key) :
    s.store.AddressOne key n m ↔ n.sameIgnoringAsciiCase m = true := by
  constructor
  · intro hone
    apply Classical.byContradiction
    intro hdiffers
    have hne : n.sameIgnoringAsciiCase m = false := Bool.eq_false_iff.mpr hdiffers
    -- the value of the other name would be any that is written
    obtain ⟨spelling, hfound⟩ := hone.found .dword [0]
    obtain ⟨spelling', hfound'⟩ := hone.found .dword [1]
    rw [h.value?_write_of_ne hne] at hfound hfound'
    rw [hfound] at hfound'
    cases hfound'
  · intro hsame
    have hname : sameValueName (some n) (some m) = true := hsame
    have hback : m.sameIgnoringAsciiCase n = true := by
      have hcomm := sameValueName_comm (some m) (some n)
      exact hcomm.trans hname
    refine ⟨h.value?_write hsame, ?_, ?_⟩
    · intro type data type' data'
      exact (h.serve n type data).value?_write hback type' data'
    · intro type data type' data'
      have hwritten := h.serve n type data
      have hthere : HasName ((s.store.write key n type data).valuesAt key.path) (some m) := by
        rw [h.valuesAt_write]
        exact hasName_setStoredValue hname type data _
      rw [hwritten.valuesAt_write]
      exact length_setStoredValue_of_hasName hwritten.distinct hthere type' data'

/-- **The names of values are told apart up to ASCII case**, behind any requests: at least as
finely as in lower case, and just so where lower case changes no letter outside of ASCII. -/
theorem valueNames_asciiCase (requests : List StoreRequest) :
    (∀ key ∈ (serveAll {} requests).issued, ¬ClosedBy requests key → ∀ n m,
      ((serveAll {} requests).store.AddressOne key n m ↔ n.sameIgnoringAsciiCase m = true) ∧
      (n.sameIgnoringAsciiCase m = false → ∀ type data,
        ((serveAll {} requests).store.write key n type data).value? key.path (some m) =
          (serveAll {} requests).store.value? key.path (some m)) ∧
      ((serveAll {} requests).store.AddressOne key n m → n.lowerCase = m.lowerCase) ∧
      (n.HasAsciiCase → m.HasAsciiCase →
        ((serveAll {} requests).store.AddressOne key n m ↔ n.lowerCase = m.lowerCase))) ∧
    ∀ stored ∈ (serveAll {} requests).store.keys, stored.values.Pairwise fun v w =>
      ∀ a ∈ v.name, ∀ b ∈ w.name, a.sameIgnoringAsciiCase b = false ∧
        (a.HasAsciiCase → b.HasAsciiCase → a.lowerCase ≠ b.lowerCase) := by
  constructor
  · intro key hkey hleft n m
    have hwritable := writable_serveAll hkey hleft
    have hiff : (serveAll {} requests).store.AddressOne key n m ↔
        n.sameIgnoringAsciiCase m = true := hwritable.addressOne_iff
    refine ⟨hiff, hwritable.value?_write_of_ne, ?_, ?_⟩
    · intro hone
      exact Text.lowerCase_eq_of_sameIgnoringAsciiCase (hiff.mp hone)
    · intro hn hm
      rw [hiff]
      exact Text.sameIgnoringAsciiCase_iff hn hm
  · intro stored hstored
    have hkept : (serveAll {} requests).Kept := kept_empty.serveAll requests
    obtain ⟨entry, hentry, rfl⟩ := List.mem_map.mp hstored
    refine (hkept.tree.names entry hentry).imp ?_
    intro v w hdiffer a ha b hb
    rw [ha, hb] at hdiffer
    have hne : a.sameIgnoringAsciiCase b = false := hdiffer
    refine ⟨hne, ?_⟩
    intro hasA hasB hlower
    rw [← Text.sameIgnoringAsciiCase_iff hasA hasB, hne] at hlower
    cases hlower

/-- The first handle of a store. -/
def firstHandle : KeyHandle :=
  ⟨0, slotOf "HKEY_LOCAL_MACHINE\\A".toList, "HKEY_LOCAL_MACHINE\\A".toList⟩

/-- A key is opened and has a value. -/
def accentedRequests : List StoreRequest :=
  [.openKey .localMachine "A".toList,
    .setValue firstHandle (some "É".toList) .dword [1, 0, 0, 0]]

theorem not_closedBy_accented : ¬ClosedBy accentedRequests firstHandle := by
  have hissued : firstHandle ∈ (serveAll {} accentedRequests).issued := by decide +kernel
  rw [← mem_opened_iff hissued]
  decide +kernel

/-- The accent stays, the ASCII letters of a name may change their case. -/
theorem valueNames_asciiCase_accented :
    (serveAll {} accentedRequests).store.AddressOne firstHandle "Éa".toList "ÉA".toList ∧
      ¬(serveAll {} accentedRequests).store.AddressOne firstHandle "Éa".toList "éa".toList := by
  obtain ⟨hnames, -⟩ := valueNames_asciiCase accentedRequests
  have hopen := hnames firstHandle (by decide +kernel) not_closedBy_accented
  constructor
  · rw [(hopen _ _).1]
    decide +kernel
  · rw [(hopen _ _).1]
    decide +kernel

/-- **Two values of one key may have the same name in lower case**: the names É and é do not
address one value, and a write under the one adds a value beside the other. -/
theorem lowerCase_of_apart :
    firstHandle ∈ (serveAll {} accentedRequests).issued ∧
      ¬ClosedBy accentedRequests firstHandle ∧
      Text.lowerCase "É".toList = Text.lowerCase "é".toList ∧
      ¬(serveAll {} accentedRequests).store.AddressOne firstHandle "É".toList "é".toList ∧
      (serveAll {} (accentedRequests ++ [.setValue firstHandle (some "é".toList) .dword
          [2, 0, 0, 0]])).store.valuesAt "HKLM\\A".toList =
        [⟨some "É".toList, .dword, [1, 0, 0, 0]⟩, ⟨some "é".toList, .dword, [2, 0, 0, 0]⟩] := by
  refine ⟨by decide +kernel, not_closedBy_accented, by decide +kernel, ?_, by decide +kernel⟩
  intro hone
  obtain ⟨spelling, hfound⟩ := hone.found .dword [1, 0, 0, 0]
  have hnone : ((serveAll {} accentedRequests).store.write firstHandle "É".toList .dword
      [1, 0, 0, 0]).value? firstHandle.path (some "é".toList) = none := by decide +kernel
  rw [hnone] at hfound
  cases hfound

end IssuingStore

end RegistryText
