import Mathlib.Data.List.Induction
import Mathlib.Data.List.Nodup
import RegistryText.Proofs.Store.KeyNames
import RegistryText.Proofs.Store.Replay
import RegistryText.Proofs.Store.Representation

/-!
# Handles that have been closed

A handle that a store has issued is open until a request closes it.  A store knows a handle by
its number alone, so a request closes a handle when it comes with a handle of the same number,
at a time when the number has been issued (`ClosedBy`).  **The open handles are those that no
request has closed** (`mem_opened_iff`): a number is opened when it is issued and at no other
time, so closing it is for ever.

Where all requests come with handles that the store itself had issued, two handles with one
number are the same handle, and a handle is closed by the request to close it and by no other
(`UsesOwn.closedBy_iff`).
-/

namespace RegistryText

namespace IssuingStore

theorem serveAll_concat (s : IssuingStore) (requests : List StoreRequest)
    (request : StoreRequest) :
    s.serveAll (requests ++ [request]) = (s.serveAll requests).serve request :=
  List.foldl_append

/-! ### Issued handles -/

/-- A handle that a request issues is the answer to opening a key. -/
theorem mem_issued_serve {s : IssuingStore} {request : StoreRequest} {key : KeyHandle}
    (h : key ∈ (s.serve request).issued) :
    key ∈ s.issued ∨ ∃ root path, request = .openKey root path ∧
      (s.store.openKey root path).1 = .ok key := by
  cases request with
  | deny | setValue | closeKey => exact Or.inl h
  | openKey root path =>
      rcases List.mem_append.mp h with hold | hnew
      · exact Or.inl hold
      · right
        refine ⟨root, path, rfl, ?_⟩
        cases hanswer : (s.store.openKey root path).1 with
        | error cause => simp [hanswer, Except.toOption] at hnew
        | ok issued =>
            have hissued : key = issued := by simpa [hanswer, Except.toOption] using hnew
            rw [hissued]

/-- What has been issued stays issued. -/
theorem issued_subset_serve (s : IssuingStore) (request : StoreRequest) :
    s.issued ⊆ (s.serve request).issued := by
  cases request with
  | deny | setValue | closeKey => exact List.Subset.refl _
  | openKey root path => exact List.subset_append_left _ _

theorem issued_subset_serveAll (s : IssuingStore) (requests : List StoreRequest) :
    s.issued ⊆ (s.serveAll requests).issued := by
  induction requests generalizing s with
  | nil => exact List.Subset.refl _
  | cons request requests ih =>
      exact List.Subset.trans (s.issued_subset_serve request) (ih (s.serve request))

/-- The handles that a store has issued are handles. -/
theorem isIssued_of_mem {requests : List StoreRequest} {key : KeyHandle}
    (h : key ∈ (serveAll {} requests).issued) : key.IsIssued := by
  induction requests using List.reverseRecOn with
  | nil => cases h
  | append_singleton requests request ih =>
      rw [serveAll_concat] at h
      rcases mem_issued_serve h with hold | ⟨root, path, -, hopen⟩
      · exact ih hold
      · exact ⟨_, root, path, hopen⟩

/-- The number of a handle tells it apart from the others of its store. -/
theorem Kept.eq_of_id_eq {s : IssuingStore} (h : s.Kept) {key key' : KeyHandle}
    (hkey : key ∈ s.issued) (hkey' : key' ∈ s.issued) (hid : key.id = key'.id) : key = key' := by
  have hdistinct : (s.issued.map KeyHandle.id).Nodup := by
    rw [h.issued]
    exact List.nodup_range
  exact List.inj_on_of_nodup_map hdistinct hkey hkey' hid

theorem Kept.id_lt {s : IssuingStore} (h : s.Kept) {key : KeyHandle} (hkey : key ∈ s.issued) :
    key.id < s.store.nextId := by
  have hid : key.id ∈ s.issued.map KeyHandle.id := List.mem_map_of_mem hkey
  rw [h.issued] at hid
  exact List.mem_range.mp hid

/-! ### Open handles -/

/-- Closing takes the number out of the open ones, if it is there. -/
theorem opened_serve_closeKey (s : IssuingStore) (key : KeyHandle) :
    (s.serve (.closeKey key)).store.opened = s.store.opened.erase key.id := by
  have hserve : (s.serve (.closeKey key)).store = s.store.closeKey key := rfl
  rw [hserve, MemoryStore.closeKey]
  by_cases hopen : s.store.opened.contains key.id = true
  · rw [if_pos hopen]
  · rw [if_neg hopen]
    rw [List.contains_iff_mem] at hopen
    exact (List.erase_of_not_mem hopen).symm

/-- No number is open twice: a number that is opened has not been issued. -/
theorem nodup_opened_serveAll (requests : List StoreRequest) :
    (serveAll {} requests).store.opened.Nodup := by
  induction requests using List.reverseRecOn with
  | nil => exact List.nodup_nil
  | append_singleton requests request ih =>
      have hkept : (serveAll {} requests).Kept := kept_empty.serveAll requests
      have hchange := change_serve (serveAll {} requests) request
      rw [serveAll_concat]
      generalize (serveAll {} requests).serve request = s' at hchange ⊢
      cases hchange with
      | unchanged | denied | written => exact ih
      | opened root path hallowed =>
          have hfresh : (serveAll {} requests).store.nextId ∉
              (serveAll {} requests).store.opened := fun hopen =>
            Nat.lt_irrefl _ (hkept.opened _ hopen)
          exact List.nodup_cons.mpr ⟨hfresh, ih⟩
      | closed key hopen => exact ih.erase key.id

/-- Requests close a handle when one of them closes a handle with its number behind the request
that issued it. -/
def ClosedBy (requests : List StoreRequest) (key : KeyHandle) : Prop :=
  ∃ front closing behind, requests = front ++ .closeKey closing :: behind ∧
    key ∈ (serveAll {} front).issued ∧ closing.id = key.id

theorem closedBy_concat {requests : List StoreRequest} {request : StoreRequest}
    {key : KeyHandle} :
    ClosedBy (requests ++ [request]) key ↔
      ClosedBy requests key ∨ ∃ closing, request = .closeKey closing ∧
        key ∈ (serveAll {} requests).issued ∧ closing.id = key.id := by
  constructor
  · intro h
    obtain ⟨front, closing, behind, hsplit, hkey, hid⟩ := h
    rcases List.eq_nil_or_concat behind with rfl | ⟨between, last, rfl⟩
    · obtain ⟨rfl, hrequest⟩ := List.append_inj' hsplit rfl
      exact Or.inr ⟨closing, List.singleton_inj.mp hrequest, hkey, hid⟩
    · rw [List.concat_eq_append, ← List.cons_append, ← List.append_assoc] at hsplit
      obtain ⟨rfl, -⟩ := List.append_inj' hsplit rfl
      exact Or.inl ⟨front, closing, between, rfl, hkey, hid⟩
  · intro h
    rcases h with ⟨front, closing, behind, rfl, hkey, hid⟩ | ⟨closing, rfl, hkey, hid⟩
    · exact ⟨front, closing, behind ++ [request], by simp, hkey, hid⟩
    · exact ⟨requests, closing, [], rfl, hkey, hid⟩

/-- A handle that is yet to be issued has not been closed. -/
theorem ClosedBy.mem_issued {requests : List StoreRequest} {key : KeyHandle}
    (h : ClosedBy requests key) : key ∈ (serveAll {} requests).issued := by
  obtain ⟨front, closing, behind, rfl, hkey, -⟩ := h
  have hall : serveAll {} (front ++ .closeKey closing :: behind) =
      (serveAll {} front).serveAll (.closeKey closing :: behind) := List.foldl_append
  rw [hall]
  exact issued_subset_serveAll _ _ hkey

/-- Only a request to close a handle makes a difference to the handles that were issued before. -/
theorem Kept.mem_opened_serve {s : IssuingStore} (h : s.Kept) {request : StoreRequest}
    (hrequest : ∀ closing, request ≠ .closeKey closing) {key : KeyHandle} (hkey : key ∈ s.issued) :
    key.id ∈ (s.serve request).store.opened ↔ key.id ∈ s.store.opened := by
  have hchange := change_serve s request
  generalize s.serve request = s' at hchange ⊢
  cases hchange with
  | unchanged | denied | written => exact Iff.rfl
  | closed closing => exact absurd rfl (hrequest closing)
  | opened root path hallowed =>
      have hne : key.id ≠ s.store.nextId := Nat.ne_of_lt (h.id_lt hkey)
      rw [List.mem_cons]
      exact or_iff_right hne

/-- A handle that is issued is open. -/
theorem mem_opened_of_issued {s : IssuingStore} {request : StoreRequest} {key : KeyHandle}
    (hkey : key ∈ (s.serve request).issued) (hnew : key ∉ s.issued) :
    key.id ∈ (s.serve request).store.opened := by
  have hchange := change_serve s request
  generalize s.serve request = s' at hchange hkey ⊢
  cases hchange with
  | unchanged | denied | written | closed => exact absurd hkey hnew
  | opened root path hallowed =>
      rcases List.mem_append.mp hkey with hold | hlast
      · exact absurd hold hnew
      · obtain rfl := List.mem_singleton.mp hlast
        exact List.mem_cons_self

/-- **A handle is open as long as no request has closed it**, by induction on the requests, the
last one split off. -/
theorem mem_opened_iff {requests : List StoreRequest} {key : KeyHandle}
    (hkey : key ∈ (serveAll {} requests).issued) :
    key.id ∈ (serveAll {} requests).store.opened ↔ ¬ClosedBy requests key := by
  induction requests using List.reverseRecOn with
  | nil => cases hkey
  | append_singleton requests request ih =>
      have hkept : (serveAll {} requests).Kept := kept_empty.serveAll requests
      rw [closedBy_concat]
      rw [serveAll_concat] at hkey ⊢
      by_cases hcloses : ∃ closing, request = .closeKey closing
      · obtain ⟨closing, rfl⟩ := hcloses
        have hissued : key ∈ (serveAll {} requests).issued := hkey
        rw [opened_serve_closeKey, (nodup_opened_serveAll requests).mem_erase_iff, ih hissued]
        constructor
        · intro hopen hclosed
          obtain ⟨hother, hleft⟩ := hopen
          rcases hclosed with hclosed | ⟨closing', heq, -, hid⟩
          · exact hleft hclosed
          · obtain rfl := StoreRequest.closeKey.inj heq
            exact hother hid.symm
        · intro hleft
          refine ⟨fun hid => ?_, fun hclosed => hleft (Or.inl hclosed)⟩
          exact hleft (Or.inr ⟨closing, rfl, hissued, hid.symm⟩)
      · have hnow : ¬∃ closing, request = .closeKey closing ∧
            key ∈ (serveAll {} requests).issued ∧ closing.id = key.id := by
          intro hclosed
          obtain ⟨closing, heq, -⟩ := hclosed
          exact hcloses ⟨closing, heq⟩
        rw [or_iff_left hnow]
        by_cases hold : key ∈ (serveAll {} requests).issued
        · rw [hkept.mem_opened_serve (fun closing heq => hcloses ⟨closing, heq⟩) hold]
          exact ih hold
        · exact iff_of_true (mem_opened_of_issued hkey hold) fun hclosed => hold hclosed.mem_issued

/-! ### The store's own handles -/

/-- Each request comes with a handle that the store itself had issued when it was asked. -/
def UsesOwn (s : IssuingStore) : List StoreRequest → Prop
  | [] => True
  | request :: requests =>
      (∀ key ∈ request.handle?, key ∈ s.issued) ∧ UsesOwn (s.serve request) requests

instance decidableUsesOwn (s : IssuingStore) : ∀ requests, Decidable (s.UsesOwn requests)
  | [] => .isTrue trivial
  | request :: requests =>
      have := decidableUsesOwn (s.serve request) requests
      inferInstanceAs (Decidable
        ((∀ key ∈ request.handle?, key ∈ s.issued) ∧ UsesOwn (s.serve request) requests))

theorem UsesOwn.mem_issued {s : IssuingStore} {front behind : List StoreRequest}
    {request : StoreRequest} (h : s.UsesOwn (front ++ request :: behind)) {key : KeyHandle}
    (hkey : key ∈ request.handle?) : key ∈ (s.serveAll front).issued := by
  induction front generalizing s with
  | nil => exact h.1 key hkey
  | cons first front ih => exact ih h.2

/-- The store's own handles are handles. -/
theorem UsesOwn.isIssued {requests : List StoreRequest} (h : UsesOwn {} requests) :
    ∀ request ∈ requests, ∀ key ∈ request.handle?, key.IsIssued := by
  intro request hrequest key hkey
  obtain ⟨front, behind, rfl⟩ := List.append_of_mem hrequest
  exact isIssued_of_mem (h.mem_issued hkey)

/-- **Among handles of the store's own, only the request to close a handle closes it.** -/
theorem UsesOwn.closedBy_iff {requests : List StoreRequest} (hown : UsesOwn {} requests)
    (key : KeyHandle) : ClosedBy requests key ↔ .closeKey key ∈ requests := by
  constructor
  · intro h
    obtain ⟨front, closing, behind, rfl, hkey, hid⟩ := h
    have hclosing : closing ∈ (serveAll {} front).issued := hown.mem_issued rfl
    have hkept : (serveAll {} front).Kept := kept_empty.serveAll front
    obtain rfl := hkept.eq_of_id_eq hclosing hkey hid
    exact List.mem_append_right _ List.mem_cons_self
  · intro h
    obtain ⟨front, behind, rfl⟩ := List.append_of_mem h
    exact ⟨front, key, behind, rfl, hown.mem_issued rfl, rfl⟩

end IssuingStore

end RegistryText
