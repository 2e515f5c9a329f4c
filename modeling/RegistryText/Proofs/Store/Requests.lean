import RegistryText.Proofs.Store.Table

/-!
# Requests to a store in memory

A store in memory is asked to deny a key, to open one, to set a value of the key of a
handle and to close a handle.  It is not asked in any fixed order, and the handle of a
request may be closed, used before or issued by another store.  `Change` says all that
one request can do: **a request that the store does not carry out leaves it as it is**,
and one that it carries out is noted in the log, unless it denies a key.
-/

namespace RegistryText

/-- A request to a store in memory. -/
inductive StoreRequest where
  /-- Deny a key and all below it. -/
  | deny (path : Text)
  /-- Open a key. -/
  | openKey (root : RootKey) (path : Text)
  /-- Set a value of the key of a handle. -/
  | setValue (key : KeyHandle) (name : Option Text) (type : ValueType) (data : Bytes)
  /-- Close a handle. -/
  | closeKey (key : KeyHandle)
  deriving DecidableEq, Repr

/-- The handle that comes with a request. -/
def StoreRequest.handle? : StoreRequest → Option KeyHandle
  | deny _ | openKey _ _ => none
  | setValue key _ _ _ | closeKey key => some key

/-- A store in memory with the handles that it has issued, oldest first. -/
structure IssuingStore where
  /-- The store. -/
  store : MemoryStore := {}
  /-- The handles. -/
  issued : List KeyHandle := []
  deriving Repr

namespace IssuingStore

/-- Take a request. -/
def serve (s : IssuingStore) : StoreRequest → IssuingStore
  | .deny path => { s with store := s.store.deny path }
  | .openKey root path =>
      let r := s.store.openKey root path
      ⟨r.2, s.issued ++ r.1.toOption.toList⟩
  | .setValue key name type data => { s with store := (s.store.setValue key name type data).2 }
  | .closeKey key => { s with store := s.store.closeKey key }

/-- Take requests, in order. -/
def serveAll (s : IssuingStore) (requests : List StoreRequest) : IssuingStore :=
  requests.foldl serve s

/-- What becomes of a store by a request. -/
inductive Change (s : IssuingStore) : StoreRequest → IssuingStore → Prop
  | unchanged (request : StoreRequest) : Change s request s
  | denied (path slot : Text) :
      Change s (.deny path) { s with store := { s.store with denied := s.store.denied ++ [slot] } }
  | opened (root : RootKey) (path : Text)
      (hallowed : s.store.isDenied (slotOf (canonicalPath root path)) = false) :
      Change s (.openKey root path)
        ⟨{ s.store with
            table := s.store.table.ensureAll (canonicalPaths root path)
            opened := s.store.nextId :: s.store.opened
            nextId := s.store.nextId + 1
            log := s.store.log ++ [.openKey (canonicalPath root path)] },
          s.issued ++
            [⟨s.store.nextId, slotOf (canonicalPath root path), canonicalPath root path⟩]⟩
  | written (key : KeyHandle) (name : Option Text) (type : ValueType) (data : Bytes)
      (hopen : key.id ∈ s.store.opened) (hpresent : key.slot ∈ s.store.table.slots) :
      Change s (.setValue key name type data)
        { s with store := { s.store with
            table := s.store.table.setValue key.slot name type data
            log := s.store.log ++ [.setValue key.path name type data] } }
  | closed (key : KeyHandle) (hopen : key.id ∈ s.store.opened) :
      Change s (.closeKey key)
        { s with store := { s.store with
            opened := s.store.opened.erase key.id
            log := s.store.log ++ [.closeKey key.path] } }

/-- **Every request is one of these changes.** -/
theorem change_serve (s : IssuingStore) (request : StoreRequest) :
    Change s request (s.serve request) := by
  cases request with
  | deny path =>
      rw [serve, MemoryStore.deny]
      split
      next => exact .unchanged _
      next slot _ => exact .denied path slot
  | openKey root path =>
      cases hdenied : s.store.isDenied (slotOf (canonicalPath root path)) with
      | true =>
          have hsame : s.serve (.openKey root path) = s := by
            simp [serve, MemoryStore.openKey_of_denied hdenied, Except.toOption]
          rw [hsame]
          exact .unchanged _
      | false =>
          simp only [serve, MemoryStore.openKey_of_allowed hdenied]
          exact .opened root path hdenied
  | setValue key name type data =>
      by_cases hwritable : key.id ∈ s.store.opened ∧ key.slot ∈ s.store.table.slots
      · obtain ⟨hopen, hpresent⟩ := hwritable
        rw [serve, MemoryStore.setValue_of_open hopen hpresent]
        exact .written key name type data hopen hpresent
      · rw [serve, MemoryStore.setValue_of_refused hwritable]
        exact .unchanged _
  | closeKey key =>
      by_cases hopen : s.store.opened.contains key.id = true
      · rw [serve, MemoryStore.closeKey, if_pos hopen]
        exact .closed key (List.contains_iff_mem.mp hopen)
      · rw [serve, MemoryStore.closeKey, if_neg hopen]
        exact .unchanged _

/-- A request other than to deny a key leaves the denied keys. -/
theorem denied_serve (s : IssuingStore) {request : StoreRequest}
    (h : ∀ path, request ≠ .deny path) : (s.serve request).store.denied = s.store.denied := by
  have hchange := change_serve s request
  generalize s.serve request = s' at hchange ⊢
  cases hchange with
  | denied path slot => exact absurd rfl (h path)
  | unchanged | opened | written | closed => rfl

end IssuingStore

end RegistryText
