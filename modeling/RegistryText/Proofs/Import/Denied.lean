import RegistryText.Proofs.Import.ByteDependence
import RegistryText.Proofs.Import.Diagnostics
import RegistryText.Proofs.Import.Handles
import RegistryText.Proofs.Import.Lockstep
import RegistryText.Proofs.Store.Denied

/-!
# Imports into stores with denied keys

A section of a denied key is lost, and nothing else is.  The import of the same
source with and without denied keys goes through the same turns: **the log of the
one is the log of the other without the calls about denied keys**, and its
diagnostics are those of the other one with a refusal for each denied key that
the source opens (`log_of_denied`).

What carries the comparison is that between two turns the import with denied
keys holds the key of the other import or, if this is denied, no key at all; so
the values behind a refused key are written nowhere.
-/

namespace RegistryText

/-- The path of the key that a logged call has opened. -/
def StoreOp.opened? : StoreOp → Option Text
  | openKey path => some path
  | closeKey _ | setValue _ _ _ _ => none

/-- The key that the store refused to open for a reason of its own, by its
canonical path, and the reason. -/
def DiagnosticKind.refused? : DiagnosticKind → Option (Text × Text)
  | keyOpenFailed path (.backend reason) =>
      (RootKey.split? path).map fun split => (canonicalPath split.1 split.2, reason)
  | _ => none

/-- Only refusals of the store are refusals of a key. -/
theorem DiagnosticKind.refused?_of_isRefusal {kind : DiagnosticKind} (h : kind.isRefusal = false) :
    kind.refused? = none := by
  cases kind <;> first | rfl | cases h

/-- The keys within denied ones that a log opens, with what a store says of them. -/
def refusedOpens (slots : List Text) (log : List StoreOp) : List (Text × Text) :=
  ((log.filterMap StoreOp.opened?).filter (liesWithin slots)).map fun path =>
    (path, accessDenied path)

theorem refusedOpens_append (slots : List Text) (log more : List StoreOp) :
    refusedOpens slots (log ++ more) = refusedOpens slots log ++ refusedOpens slots more := by
  simp [refusedOpens]

namespace Importer

variable {ρ : Type}

/-- The second importer imports the same lines as the first one into a store with
denied slots. -/
structure Shadows (slots : List Text) (m n : Importer ρ MemoryStore KeyHandle) : Prop where
  lines : n.lines = m.lines
  state : n.state = m.state
  dialect : n.dialect = m.dialect
  stores : MemoryStore.Withholds slots m.store n.store m.key n.key
  kept : m.report.diagnostics =
    n.report.diagnostics.filter fun d => d.kind.refused?.isNone
  refused : n.report.diagnostics.filterMap (fun d => d.kind.refused?) =
    refusedOpens slots m.store.log

variable {slots : List Text} {m n : Importer ρ MemoryStore KeyHandle}

theorem closeKey_eq_release (m : Importer ρ MemoryStore KeyHandle) : m.closeKey =
    { m with store := m.store.release m.key, key := none, valueName := none } := by
  cases hkey : m.key <;> simp only [closeKey, hkey] <;> rfl

/-- Both close the key that they hold. -/
theorem Shadows.closeKey (h : Shadows slots m n) : Shadows slots m.closeKey n.closeKey := by
  have hrefused : refusedOpens slots (m.store.release m.key).log =
      refusedOpens slots m.store.log := by
    rw [h.stores.free.log_release, refusedOpens_append]
    cases m.key <;> simp [refusedOpens, StoreOp.opened?]
  rw [closeKey_eq_release, closeKey_eq_release]
  exact { h with stores := h.stores.release, refused := h.refused.trans hrefused.symm }

variable [LineSupply ρ]

/-- Both note a problem that is no refusal of a key. -/
theorem Shadows.note (h : Shadows slots m n) {kinds : List DiagnosticKind}
    (hkinds : ∀ kind ∈ kinds, kind.refused? = none) :
    Shadows slots (m.note kinds) (n.note kinds) := by
  have hnone : ∀ d ∈ kinds.map (Diagnostic.mk (LineSupply.lineNumber m.lines)),
      d.kind.refused? = none := by
    intro d hd
    obtain ⟨kind, hkind, rfl⟩ := List.mem_map.mp hd
    exact hkinds kind hkind
  have hkeep := List.filter_eq_self.mpr
    fun d hd => (congrArg Option.isNone (hnone d hd) : d.kind.refused?.isNone = true)
  have hlines := h.lines
  refine { h with kept := ?_, refused := ?_ }
  · simp only [Importer.note, hlines, List.filter_append, h.kept]
    rw [hkeep]
  · simp only [Importer.note, hlines, List.filterMap_append, h.refused]
    rw [List.filterMap_eq_nil_iff.mpr hnone, List.append_nil]

theorem openKey_eq (m : Importer ρ MemoryStore KeyHandle) {path below : Text} {root : RootKey}
    {key : KeyHandle} {opened : MemoryStore} (hsplit : RootKey.split? path = some (root, below))
    (hopen : m.closeKey.store.openKey root below = (.ok key, opened)) :
    (m.openKey path).2 = { m.closeKey with
      store := opened
      key := some key
      report := { m.closeKey.report with keysOpened := m.closeKey.report.keysOpened + 1 } } := by
  have hrequest : requestKey m.closeKey.store path = (.ok key, opened) :=
    (requestKey_of_root hsplit).trans hopen
  simp only [Importer.openKey, hrequest]

theorem openKey_eq_refused (m : Importer ρ MemoryStore KeyHandle) {path below : Text}
    {root : RootKey} {cause : StoreError}
    (hsplit : RootKey.split? path = some (root, below))
    (hopen : m.closeKey.store.openKey root below = (.error cause, m.closeKey.store)) :
    (m.openKey path).2 = m.closeKey.note [.keyOpenFailed path cause] := by
  have hrequest : requestKey (κ := KeyHandle) m.closeKey.store path =
      (.error cause, m.closeKey.store) := (requestKey_of_root hsplit).trans hopen
  simp only [Importer.openKey, hrequest]

/-- Without a root no key is asked for. -/
theorem openKey_of_unknownRoot (m : Importer ρ MemoryStore KeyHandle) {path : Text}
    (hsplit : RootKey.split? path = none) :
    (m.openKey path).2 = m.closeKey.note [.keyOpenFailed path (.unknownRootKey path)] := by
  have hrequest : requestKey (κ := KeyHandle) m.closeKey.store path =
      (.error (.unknownRootKey path), m.closeKey.store) := requestKey_of_no_root hsplit
  simp only [Importer.openKey, hrequest]

/-- A key that is refused to the second importer adds a diagnostic to it. -/
theorem Shadows.openKey (h : Shadows slots m n) (path : Text) :
    Shadows slots (m.openKey path).2 (n.openKey path).2 := by
  have hclosed := h.closeKey
  have hstores := hclosed.stores
  rw [show m.closeKey.key = none by rw [closeKey_eq_release],
    show n.closeKey.key = none by rw [closeKey_eq_release]] at hstores
  cases hsplit : RootKey.split? path with
  | none =>
      rw [openKey_of_unknownRoot m hsplit, openKey_of_unknownRoot n hsplit]
      exact hclosed.note (by simp [DiagnosticKind.refused?])
  | some split =>
      obtain ⟨root, below⟩ := split
      cases hwithin : liesWithin slots (canonicalPath root below) with
      | true =>
          obtain ⟨key, opened, hopen, hrefuse, hlog, hstores'⟩ := hstores.refused hwithin
          have hreason : (DiagnosticKind.keyOpenFailed path
              (.backend (accessDenied (canonicalPath root below)))).refused? =
              some (canonicalPath root below, accessDenied (canonicalPath root below)) := by
            rw [DiagnosticKind.refused?, hsplit]
            rfl
          rw [openKey_eq m hsplit hopen, openKey_eq_refused n hsplit hrefuse]
          refine { hclosed with stores := ?_, kept := ?_, refused := ?_ }
          · show MemoryStore.Withholds slots opened n.closeKey.store (some key) n.closeKey.key
            rwa [closeKey_eq_release] at hstores' ⊢
          · simp only [Importer.note, List.map_cons, List.map_nil, List.filter_append, hclosed.kept]
            simp [hreason]
          · simp only [Importer.note, List.map_cons, List.map_nil, List.filterMap_append,
              hclosed.refused]
            rw [hlog, refusedOpens_append]
            simp [refusedOpens, StoreOp.opened?, hwithin, hreason]
      | false =>
          obtain ⟨key, opened, key', opened', hopen, hopen', hlog, hstores'⟩ :=
            hstores.opened hwithin
          rw [openKey_eq m hsplit hopen, openKey_eq n hsplit hopen']
          refine { hclosed with stores := hstores', refused := ?_ }
          rw [hlog, refusedOpens_append]
          simpa [refusedOpens, StoreOp.opened?, hwithin] using hclosed.refused

/-- A value is set by both, or by the first importer alone if its key is denied. -/
theorem Shadows.write (h : Shadows slots m n) (w : KeyWrite) :
    Shadows slots (m.write w) (n.write w) := by
  have hstores := h.stores
  cases hkey : m.key with
  | none =>
      have hkey' : n.key = none := (hkey ▸ hstores).held_of_none
      simpa only [Importer.write, hkey, hkey'] using h
  | some key =>
      have hrefused : ∀ {written : MemoryStore},
          written.log = m.store.log ++ [.setValue key.path w.name w.type w.data] →
            n.report.diagnostics.filterMap (fun d => d.kind.refused?) =
              refusedOpens slots written.log := by
        intro written hlog
        rw [hlog, refusedOpens_append, h.refused]
        simp [refusedOpens, StoreOp.opened?]
      cases hkey' : n.key with
      | none =>
          rw [hkey, hkey'] at hstores
          obtain ⟨written, hset, hlog, hafter⟩ := hstores.setAlone w.name w.type w.data
          have hcall : RegistryStore.setValue m.store key w.name w.type w.data =
              (.ok (), written) := hset
          simp only [Importer.write, hkey, hkey', hcall]
          exact { h with stores := hkey'.symm ▸ hafter, refused := hrefused hlog }
      | some key' =>
          rw [hkey, hkey'] at hstores
          obtain ⟨written, written', hset, hset', hlog, hafter⟩ :=
            hstores.setBoth w.name w.type w.data
          have hcall : RegistryStore.setValue m.store key w.name w.type w.data =
              (.ok (), written) := hset
          have hcall' : RegistryStore.setValue n.store key' w.name w.type w.data =
              (.ok (), written') := hset'
          simp only [Importer.write, hkey, hkey', hcall, hcall']
          exact { h with stores := hafter, refused := hrefused hlog }

/-- **An import with denied keys shadows the one without.** -/
theorem lockstep_shadows (slots : List Text) :
    Lockstep (fun _ => True) (Shadows slots : Importer ρ MemoryStore KeyHandle → _ → Prop) where
  state h := h.state
  dialect h := h.dialect
  back h := h
  next h _ := by rw [h.lines]
  fetch {m n} h _ := by
    have hlines := h.lines
    unfold fetch
    rw [hlines]
    split <;> exact { h with lines := rfl }
  enter state h := { h with state := rfl }
  settled {m m' n n'} h hm hn := by
    obtain ⟨hlines, hstore, hkey, hstate, hdialect, hreport⟩ := anew_eq_iff.mp hm
    obtain ⟨hlines', hstore', hkey', hstate', hdialect', hreport'⟩ := anew_eq_iff.mp hn
    exact {
      lines := by rw [hlines, hlines', h.lines]
      state := by rw [hstate, hstate', h.state]
      dialect := by rw [hdialect, hdialect', h.dialect]
      stores := by rw [hstore, hstore', hkey, hkey']; exact h.stores
      kept := by rw [hreport, hreport', h.kept]
      refused := by rw [hreport', hstore, h.refused] }
  named d h := { h with dialect := rfl }
  note h hkinds := h.note fun kind hkind => DiagnosticKind.refused?_of_isRefusal (hkinds kind hkind)
  openKey path h := h.openKey path
  write w h := h.write w

theorem Shadows.finish (h : Shadows slots m n) : Shadows slots m.finish n.finish := by
  have hclosed := h.closeKey
  exact { hclosed with lines := congrArg LineSupply.close hclosed.lines }

end Importer

/-- **Denied keys are isolated.**  Whatever a source delivers, its import into an
empty store with denied keys ends as the one without: the log is the other log
without the calls about keys within denied ones, and the diagnostics are the
other ones and, in the order of the input, one for each refused key. -/
theorem log_of_denied (source : Source) (denied : List Text) (options : ImportOptions) :
    (∃ e, importView source ({} : MemoryStore) options = .error e ∧
      importView source (denied.foldl MemoryStore.deny {}) options = .error e) ∨
    ∃ view view', importView source ({} : MemoryStore) options = .ok view ∧
      importView source (denied.foldl MemoryStore.deny {}) options = .ok view' ∧
      view'.outcome = view.outcome ∧
      view'.store.log = view.store.log.filter (fun op => !liesWithin (slotsOf denied) op.path) ∧
      view.report.diagnostics =
        view'.report.diagnostics.filter (fun d => d.kind.refused?.isNone) ∧
      view'.report.diagnostics.filterMap (fun d => d.kind.refused?) =
        refusedOpens (slotsOf denied) view.store.log ∧
      view'.report.diagnostics.Pairwise fun d d' => d.line ≤ d'.line := by
  have hmap := Importer.ofSource_mapStore (κ := KeyHandle)
    (MemoryStore.withDenied (slotsOf denied)) source ({} : MemoryStore) options
  rw [MemoryStore.foldl_deny, importView, importView, hmap]
  cases hm : Importer.ofSource (κ := KeyHandle) source ({} : MemoryStore) options with
  | error e => exact Or.inl ⟨e, rfl, rfl⟩
  | ok m =>
      obtain ⟨first, second, rest, rfl⟩ := Importer.exists_ofFirstBytes hm
      let n := (Importer.ofFirstBytes (κ := KeyHandle) first second rest ({} : MemoryStore)
        options).mapStore (MemoryStore.withDenied (slotsOf denied))
      have hfresh : Importer.Shadows (slotsOf denied)
          (Importer.ofFirstBytes first second rest ({} : MemoryStore) options) n :=
        ⟨rfl, rfl, rfl, MemoryStore.withholds_empty, rfl, rfl⟩
      obtain ⟨houtcome, hshadows⟩ :=
        (Importer.lockstep_shadows (slotsOf denied)).run (fun _ => trivial)
          Importer.Shadows.finish hfresh (Or.inl rfl)
      obtain ⟨behind, hbehind, hholds⟩ := hshadows.stores.withheld
      refine Or.inr ⟨_, _, rfl, rfl, houtcome, ?_, hshadows.kept, hshadows.refused,
        Importer.pairwise_run LineReader.counts (Or.inl rfl) rfl⟩
      show n.run.2.store.log = _
      rw [hbehind]
      exact hholds.log

end RegistryText
