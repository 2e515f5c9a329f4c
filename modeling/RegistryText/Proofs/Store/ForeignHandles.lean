import Mathlib.Logic.Function.Basic
import RegistryText.Proofs.Store.ValueWrites

/-!
# Handles of other stores

Several stores take their calls interleaved in any way.  A call to one store leaves the others
alone, so every store does what its own calls make of it (`StoreFamily.serveAll_apply`); the
stores meet only in the handles, which a caller may carry from the store that issued them to
another one.

A handle has nothing that tells its store.  **A store takes every handle for its own one of the
same number**: if that one has been closed, or none of the number has been issued, the handle is
refused (`Refuses`); if it is open, the store writes through the foreign handle to the key that
the handle's path names here, and closes its own handle in place of the foreign one
(`TakesFor`).
-/

namespace RegistryText

/-- A request to one of several stores. -/
structure AddressedRequest where
  /-- The number of the store. -/
  store : Nat
  /-- What it is asked. -/
  request : StoreRequest
  deriving DecidableEq, Repr

/-- What one of the stores is asked by calls, in order. -/
def requestsTo (i : Nat) (calls : List AddressedRequest) : List StoreRequest :=
  (calls.filter fun call => call.store = i).map AddressedRequest.request

theorem requestsTo_cons (i : Nat) (call : AddressedRequest) (calls : List AddressedRequest) :
    requestsTo i (call :: calls) =
      if call.store = i then call.request :: requestsTo i calls else requestsTo i calls := by
  by_cases hstore : call.store = i <;> simp [requestsTo, hstore]

theorem mem_requestsTo {i : Nat} {calls : List AddressedRequest} {request : StoreRequest} :
    request ∈ requestsTo i calls ↔ ⟨i, request⟩ ∈ calls := by
  rw [requestsTo, List.mem_map]
  constructor
  · intro h
    obtain ⟨call, hcall, rfl⟩ := h
    obtain ⟨hmem, hstore⟩ := List.mem_filter.mp hcall
    rw [← of_decide_eq_true hstore]
    exact hmem
  · intro h
    refine ⟨⟨i, request⟩, ?_, rfl⟩
    exact List.mem_filter.mpr ⟨h, decide_eq_true rfl⟩

/-- Stores under numbers. -/
abbrev StoreFamily := Nat → IssuingStore

namespace StoreFamily

/-- Stores that nobody has asked anything. -/
def empty : StoreFamily := fun _ => {}

/-- Take a call. -/
def serve (stores : StoreFamily) (call : AddressedRequest) : StoreFamily :=
  Function.update stores call.store ((stores call.store).serve call.request)

/-- Take calls, in order. -/
def serveAll (stores : StoreFamily) (calls : List AddressedRequest) : StoreFamily :=
  calls.foldl serve stores

/-- A call changes the store that it is for, and no other. -/
theorem serve_apply (stores : StoreFamily) (call : AddressedRequest) (i : Nat) :
    stores.serve call i = if call.store = i then (stores i).serve call.request else stores i := by
  rw [serve, Function.update_apply]
  by_cases hstore : i = call.store
  · rw [if_pos hstore, if_pos hstore.symm, hstore]
  · rw [if_neg hstore, if_neg (Ne.symm hstore)]

/-- **Every store does what its own calls make of it**, however they are interleaved with calls
to the others. -/
theorem serveAll_apply (stores : StoreFamily) (calls : List AddressedRequest) (i : Nat) :
    stores.serveAll calls i = (stores i).serveAll (requestsTo i calls) := by
  induction calls generalizing stores with
  | nil => rfl
  | cons call calls ih =>
      have hstep : stores.serveAll (call :: calls) i = (stores.serve call).serveAll calls i := rfl
      rw [hstep, ih, serve_apply, requestsTo_cons]
      by_cases hstore : call.store = i
      · rw [if_pos hstore, if_pos hstore]
        rfl
      · rw [if_neg hstore, if_neg hstore]

end StoreFamily

namespace IssuingStore

/-- A store refuses a handle. -/
structure Refuses (store : MemoryStore) (key : KeyHandle) : Prop where
  setValue : ∀ name type data, store.setValue key name type data = (.error .keyNotOpen, store)
  closeKey : store.closeKey key = store

/-- A store takes a handle for an open one of its own. -/
structure TakesFor (store : MemoryStore) (key own : KeyHandle) : Prop where
  /-- A write sets a value of the key that the path of the handle names in this store. -/
  written : (store.key? key.path).isSome = true → ∀ name type data,
    (store.setValue key name type data).1 = .ok () ∧
      SetsValue store key name type data (store.setValue key name type data).2
  /-- If the path names no key here, the write is refused. -/
  missing : store.key? key.path = none → ∀ name type data,
    store.setValue key name type data = (.error .keyNotOpen, store)
  /-- Its own handle is closed, and the path of the other one is logged. -/
  closed : store.closeKey key =
    { store with
      opened := store.opened.erase own.id
      log := store.log ++ [.closeKey key.path] }
  /-- The number is open until then, and not afterwards. -/
  wasOpen : own.id ∈ store.opened
  noLongerOpen : own.id ∉ (store.closeKey key).opened

theorem refuses_of_not_open {store : MemoryStore} {key : KeyHandle}
    (h : key.id ∉ store.opened) : Refuses store key where
  setValue := by
    intro name type data
    apply MemoryStore.setValue_of_refused
    intro hwritable
    exact h hwritable.1
  closeKey := by
    rw [MemoryStore.closeKey, if_neg]
    rw [List.contains_iff_mem]
    exact h

/-- The key that the path of a handle names is the one in the slot of the handle. -/
theorem key?_path {key : KeyHandle} (h : key.IsIssued) (store : MemoryStore) :
    store.key? key.path = store.table.key? key.slot := by
  rw [MemoryStore.key?, h.slotOfPath?_eq, Option.bind_some]

theorem takesFor_of_open {requests : List StoreRequest}
    (hissued : ∀ request ∈ requests, ∀ key ∈ request.handle?, key.IsIssued) {key own : KeyHandle}
    (hkey : key.IsIssued) (hid : own.id = key.id)
    (hopen : own.id ∈ (serveAll {} requests).store.opened) :
    TakesFor (serveAll {} requests).store key own := by
  have hkept : (serveAll {} requests).Kept := kept_empty.serveAll requests
  have hlogged : Logged (serveAll {} requests).store := logged_serveAll hissued
  have hnodup : (serveAll {} requests).store.opened.Nodup := nodup_opened_serveAll requests
  rw [hid] at hopen
  have hclosed : (serveAll {} requests).store.closeKey key =
      { (serveAll {} requests).store with
        opened := (serveAll {} requests).store.opened.erase key.id
        log := (serveAll {} requests).store.log ++ [.closeKey key.path] } := by
    rw [MemoryStore.closeKey, if_pos (List.contains_iff_mem.mpr hopen)]
  refine ⟨?_, ?_, ?_, ?_, ?_⟩
  · intro hsome name type data
    rw [key?_path hkey, KeyTable.isSome_key?_iff] at hsome
    rw [MemoryStore.setValue_of_open hopen hsome]
    exact ⟨rfl, hkept.setsValue_of_present hlogged hkey hsome name type data⟩
  · intro hnone name type data
    rw [key?_path hkey] at hnone
    apply MemoryStore.setValue_of_refused
    intro hwritable
    have hsome := KeyTable.isSome_key?_iff.mpr hwritable.2
    rw [hnone] at hsome
    cases hsome
  · rw [hid]
    exact hclosed
  · rw [hid]
    exact hopen
  · rw [hclosed, hid]
    exact hnodup.not_mem_erase

/-- A number is open when the handle of that number has been issued and not been closed. -/
theorem exists_of_mem_opened {requests : List StoreRequest} {id : Nat}
    (h : id ∈ (serveAll {} requests).store.opened) :
    ∃ own ∈ (serveAll {} requests).issued, own.id = id ∧ ¬ClosedBy requests own := by
  have hkept : (serveAll {} requests).Kept := kept_empty.serveAll requests
  have hnumber : id ∈ (serveAll {} requests).issued.map KeyHandle.id := by
    rw [hkept.issued]
    exact List.mem_range.mpr (hkept.opened id h)
  obtain ⟨own, hown, rfl⟩ := List.mem_map.mp hnumber
  exact ⟨own, hown, rfl, (mem_opened_iff hown).mp h⟩

end IssuingStore

namespace StoreFamily

/-- **A store takes every handle for its own one of the same number**, whatever calls it and the
other stores have taken: it refuses the handles that it has closed and those whose number is not
open, and no others. -/
theorem takes_by_number {calls : List AddressedRequest}
    (hissued : ∀ call ∈ calls, ∀ key ∈ call.request.handle?, key.IsIssued) (i : Nat)
    {key : KeyHandle} (hkey : key.IsIssued) :
    (key ∈ (empty.serveAll calls i).issued →
        IssuingStore.ClosedBy (requestsTo i calls) key →
        IssuingStore.Refuses (empty.serveAll calls i).store key) ∧
      ((∀ own ∈ (empty.serveAll calls i).issued, own.id = key.id →
          IssuingStore.ClosedBy (requestsTo i calls) own) →
        IssuingStore.Refuses (empty.serveAll calls i).store key) ∧
      ∀ own ∈ (empty.serveAll calls i).issued, own.id = key.id →
        ¬IssuingStore.ClosedBy (requestsTo i calls) own →
        IssuingStore.TakesFor (empty.serveAll calls i).store key own := by
  have hstore : empty.serveAll calls i = IssuingStore.serveAll {} (requestsTo i calls) :=
    serveAll_apply empty calls i
  have hrequests : ∀ request ∈ requestsTo i calls, ∀ key ∈ request.handle?, key.IsIssued := by
    intro request hrequest
    exact hissued _ (mem_requestsTo.mp hrequest)
  rw [hstore]
  refine ⟨?_, ?_, ?_⟩
  · intro hown hclosed
    apply IssuingStore.refuses_of_not_open
    intro hopen
    exact (IssuingStore.mem_opened_iff hown).mp hopen hclosed
  · intro hclosed
    apply IssuingStore.refuses_of_not_open
    intro hopen
    obtain ⟨own, hown, hid, hleft⟩ := IssuingStore.exists_of_mem_opened hopen
    exact hleft (hclosed own hown hid)
  · intro own hown hid hleft
    have hopen := (IssuingStore.mem_opened_iff hown).mpr hleft
    exact IssuingStore.takesFor_of_open hrequests hkey hid hopen

/-- The first handle of one store. -/
def visiting : KeyHandle :=
  ⟨0, slotOf "HKEY_USERS\\A".toList, "HKEY_USERS\\A".toList⟩

/-- The first handle of another store. -/
def resident : KeyHandle :=
  ⟨0, slotOf "HKEY_USERS\\B".toList, "HKEY_USERS\\B".toList⟩

/-- Two stores open keys; the second one has the key of the first one, too. -/
def twoStoreCalls : List AddressedRequest :=
  [⟨0, .openKey .users "A".toList⟩, ⟨1, .openKey .users "B".toList⟩,
    ⟨1, .openKey .users "a".toList⟩]

/-- A handle of one store writes to the other one, and closes a handle there. -/
theorem visiting_not_refused :
    visiting ∈ (empty.serveAll twoStoreCalls 0).issued ∧
      visiting ∉ (empty.serveAll twoStoreCalls 1).issued ∧
      ((empty.serveAll twoStoreCalls 1).store.setValue visiting (some "x".toList) .dword
        [1, 0, 0, 0]).1 = .ok () ∧
      ((empty.serveAll twoStoreCalls 1).store.setValue visiting (some "x".toList) .dword
        [1, 0, 0, 0]).2.keys ≠ (empty.serveAll twoStoreCalls 1).store.keys ∧
      ((empty.serveAll twoStoreCalls 1).store.closeKey visiting).opened ≠
        (empty.serveAll twoStoreCalls 1).store.opened ∧
      ((empty.serveAll twoStoreCalls 1).store.closeKey visiting).log ≠
        (empty.serveAll twoStoreCalls 1).store.log := by
  decide +kernel

/-- The other store takes the handle for its own first one, and when that has been closed through
it, refuses both. -/
theorem takes_by_number_visiting :
    visiting ∉ (empty.serveAll twoStoreCalls 1).issued ∧
      IssuingStore.TakesFor (empty.serveAll twoStoreCalls 1).store visiting resident ∧
      IssuingStore.Refuses
        (empty.serveAll (twoStoreCalls ++ [⟨1, .closeKey visiting⟩]) 1).store resident ∧
      IssuingStore.Refuses
        (empty.serveAll (twoStoreCalls ++ [⟨1, .closeKey visiting⟩]) 1).store visiting := by
  have hvisiting : visiting.IsIssued := ⟨{}, .users, "A".toList, by decide +kernel⟩
  have hresident : resident.IsIssued := ⟨{}, .users, "B".toList, by decide +kernel⟩
  have hopening : ∀ call ∈ twoStoreCalls, ∀ key ∈ call.request.handle?, key.IsIssued := by
    simp [twoStoreCalls, StoreRequest.handle?]
  have hclosing : ∀ call ∈ twoStoreCalls ++ [⟨1, .closeKey visiting⟩],
      ∀ key ∈ call.request.handle?, key.IsIssued := by
    simp [twoStoreCalls, StoreRequest.handle?, hvisiting]
  have hleft : ¬IssuingStore.ClosedBy (requestsTo 1 twoStoreCalls) resident := by
    rw [← IssuingStore.mem_opened_iff (by decide +kernel)]
    decide +kernel
  have hgone : IssuingStore.ClosedBy
      (requestsTo 1 (twoStoreCalls ++ [⟨1, .closeKey visiting⟩])) resident :=
    ⟨requestsTo 1 twoStoreCalls, visiting, [], by decide +kernel, by decide +kernel, rfl⟩
  have honly : ∀ own ∈ (empty.serveAll (twoStoreCalls ++ [⟨1, .closeKey visiting⟩]) 1).issued,
      own.id = visiting.id → own = resident := by
    decide +kernel
  refine ⟨by decide +kernel, ?_, ?_, ?_⟩
  · exact (takes_by_number hopening 1 hvisiting).2.2 resident (by decide +kernel) rfl hleft
  · exact (takes_by_number hclosing 1 hresident).1 (by decide +kernel) hgone
  · apply (takes_by_number hclosing 1 hvisiting).2.1
    intro own hown hid
    rw [honly own hown hid]
    exact hgone

end StoreFamily

end RegistryText
