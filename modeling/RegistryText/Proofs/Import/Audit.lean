import RegistryText.Proofs.Import.LaterRuns
import RegistryText.Proofs.Import.LineCount
import RegistryText.Proofs.Import.RefusedCalls
import RegistryText.Proofs.Store.Replay

/-!
# Audits of reports

An audited store keeps the answer to every key that it is asked for, by its whole path and thus
also if the path has no known root, and the answer to every write.  An import does not notice the
audit, and **its report tells what has been answered**, whatever the store is
(`lockstep_audits`): the counters count the successes and the refusals in the diagnostics the
failures.

A store in memory logs the successes (`keptByCalls_logs`), and the writes that fail are those that
were to be refused.  So **a report agrees with the log of the store and with all that has failed**,
after any number of runs (`report_runs`).
-/

namespace RegistryText

/-! ### Audited stores -/

/-- A key that was asked for by its path, with the answer. -/
structure KeyRequest (κ : Type) where
  path : Text
  answer : Except StoreError κ

/-- A store in front of another that keeps what has been answered. -/
structure AuditedStore (σ κ : Type) where
  /-- The store behind. -/
  behind : σ
  /-- The keys that were asked for, oldest first. -/
  asked : List (KeyRequest κ) := []
  /-- The answers to the writes, oldest first. -/
  written : List (Except StoreError Unit) := []

namespace AuditedStore

variable {σ κ : Type}

/-- Keep the answer to a key that was asked for. -/
def keepRequest (store : AuditedStore σ κ) (request : KeyRequest κ) (behind : σ) :
    AuditedStore σ κ :=
  { store with behind := behind, asked := store.asked ++ [request] }

/-- Keep the answer to a write. -/
def keepWrite (store : AuditedStore σ κ) (answer : Except StoreError Unit) (behind : σ) :
    AuditedStore σ κ :=
  { store with behind := behind, written := store.written ++ [answer] }

end AuditedStore

-- Paths are passed on whole, under a root that is not looked at: a path without a known root is
-- not kept from the store either.
instance {σ κ : Type} [RegistryStore σ κ] : RegistryStore (AuditedStore σ κ) κ where
  resolveRoot _ path := some (.classesRoot, path)
  openKey store _ path :=
    let r := Importer.requestKey store.behind path
    (r.1, store.keepRequest ⟨path, r.1⟩ r.2)
  closeKey store key := { store with behind := RegistryStore.closeKey store.behind key }
  setValue store key name type data :=
    let r := RegistryStore.setValue store.behind key name type data
    (r.1, store.keepWrite r.1 r.2)

/-- Whether a key was not opened. -/
def DiagnosticKind.isKeyOpenFailed : DiagnosticKind → Bool
  | keyOpenFailed _ _ => true
  | malformedKey | keyDeletionUnsupported _ | invalidValueName | missingAssignment
  | valueDeletionUnsupported | unknownDataType | unknownEscape _ | invalidStringData
  | invalidDwordData | invalidHexData | setValueFailed _ => false

/-- Whether a value was not set. -/
def DiagnosticKind.isSetValueFailed : DiagnosticKind → Bool
  | setValueFailed _ => true
  | malformedKey | keyDeletionUnsupported _ | invalidValueName | missingAssignment
  | valueDeletionUnsupported | unknownDataType | unknownEscape _ | invalidStringData
  | invalidDwordData | invalidHexData | keyOpenFailed _ _ => false

section Audited

variable {σ κ : Type}

/-- A report tells what has been answered. -/
structure ImportReport.Tells (report : ImportReport) (store : AuditedStore σ κ) : Prop where
  keysOpened : report.keysOpened = store.asked.countP fun r => r.answer.isOk
  keyOpenFailed : report.diagnostics.countP (fun d => d.kind.isKeyOpenFailed) =
    store.asked.countP fun r => !r.answer.isOk
  valuesWritten : report.valuesWritten = store.written.countP fun answer => answer.isOk
  setValueFailed : report.diagnostics.countP (fun d => d.kind.isSetValueFailed) =
    store.written.countP fun answer => !answer.isOk

namespace ImportReport.Tells

variable {report : ImportReport} {store : AuditedStore σ κ}

theorem opened (h : report.Tells store) (path : Text) (key : κ) (behind : σ) :
    ImportReport.Tells { report with keysOpened := report.keysOpened + 1 }
      (store.keepRequest ⟨path, .ok key⟩ behind) := { h with
  keysOpened := by
    rw [AuditedStore.keepRequest, List.countP_append, ← h.keysOpened]
    rfl
  keyOpenFailed := by
    rw [AuditedStore.keepRequest, List.countP_append, ← h.keyOpenFailed]
    rfl }

theorem refused (h : report.Tells store) (line : Nat) (path : Text) (cause : StoreError)
    (behind : σ) : ImportReport.Tells
      { report with diagnostics := report.diagnostics ++ [⟨line, .keyOpenFailed path cause⟩] }
      (store.keepRequest ⟨path, .error cause⟩ behind) := { h with
  keysOpened := by
    rw [AuditedStore.keepRequest, List.countP_append, ← h.keysOpened]
    rfl
  keyOpenFailed := by
    rw [AuditedStore.keepRequest, List.countP_append, List.countP_append, ← h.keyOpenFailed]
    rfl
  setValueFailed := by
    rw [List.countP_append, h.setValueFailed]
    rfl }

theorem set (h : report.Tells store) (behind : σ) :
    ImportReport.Tells { report with valuesWritten := report.valuesWritten + 1 }
      (store.keepWrite (.ok ()) behind) := { h with
  valuesWritten := by
    rw [AuditedStore.keepWrite, List.countP_append, ← h.valuesWritten]
    rfl
  setValueFailed := by
    rw [AuditedStore.keepWrite, List.countP_append, ← h.setValueFailed]
    rfl }

theorem unset (h : report.Tells store) (line : Nat) (cause : StoreError) (behind : σ) :
    ImportReport.Tells
      { report with diagnostics := report.diagnostics ++ [⟨line, .setValueFailed cause⟩] }
      (store.keepWrite (.error cause) behind) := { h with
  keyOpenFailed := by
    rw [List.countP_append, h.keyOpenFailed]
    rfl
  valuesWritten := by
    rw [AuditedStore.keepWrite, List.countP_append, ← h.valuesWritten]
    rfl
  setValueFailed := by
    rw [AuditedStore.keepWrite, List.countP_append, List.countP_append, ← h.setValueFailed]
    rfl }

end ImportReport.Tells

namespace Importer

variable {ρ : Type} {m : Importer ρ σ κ} {n : Importer ρ (AuditedStore σ κ) κ}

/-- The second importer imports the same lines into an audited store. -/
structure Audits (m : Importer ρ σ κ) (n : Importer ρ (AuditedStore σ κ) κ) : Prop where
  lines : n.lines = m.lines
  state : n.state = m.state
  key : n.key = m.key
  dialect : n.dialect = m.dialect
  behind : n.store.behind = m.store
  report : n.report = m.report
  tells : m.report.Tells n.store

theorem Audits.closeKey [RegistryStore σ κ] (h : Audits m n) : Audits m.closeKey n.closeKey := by
  have hkey := h.key
  cases hheld : m.key with
  | none =>
      rw [hheld] at hkey
      simp only [Importer.closeKey, hheld, hkey]
      exact { h with key := rfl }
  | some key =>
      rw [hheld] at hkey
      simp only [Importer.closeKey, hheld, hkey]
      exact { h with
        key := rfl
        behind := congrArg (RegistryStore.closeKey · key) h.behind
        tells := { h.tells with } }

variable [LineSupply ρ]

/-- A problem that is no refusal of the store tells nothing of it. -/
theorem Audits.note (h : Audits m n) {kinds : List DiagnosticKind}
    (hkinds : ∀ kind ∈ kinds, kind.isRefusal = false) :
    Audits (m.note kinds) (n.note kinds) := by
  have hnone : ∀ {chosen : DiagnosticKind → Bool},
      (∀ kind, kind.isRefusal = false → chosen kind = false) →
      (m.note kinds).report.diagnostics.countP (fun d => chosen d.kind) =
        m.report.diagnostics.countP fun d => chosen d.kind := by
    intro chosen hchosen
    simp only [Importer.note, List.countP_append]
    rw [Nat.add_eq_left, List.countP_eq_zero]
    intro d hd
    obtain ⟨kind, hkind, rfl⟩ := List.mem_map.mp hd
    simpa using hchosen kind (hkinds kind hkind)
  exact { h with
    report := by simp only [Importer.note, h.lines, h.report]
    tells := {
      h.tells with
      keyOpenFailed := by
        rw [hnone fun kind hkind => by cases kind <;> first | rfl | cases hkind]
        exact h.tells.keyOpenFailed
      setValueFailed := by
        rw [hnone fun kind hkind => by cases kind <;> first | rfl | cases hkind]
        exact h.tells.setValueFailed } }

variable [RegistryStore σ κ]

/-- A key that is asked for is counted or noted, as it is answered. -/
theorem Audits.openKey (h : Audits m n) (path : Text) :
    Audits (m.openKey path).2 (n.openKey path).2 := by
  have hclosed := h.closeKey
  have hlines := hclosed.lines
  have hreport := hclosed.report
  rcases hrequest : requestKey (κ := κ) m.closeKey.store path with ⟨answer, store⟩
  have haudited : requestKey (κ := κ) n.closeKey.store path =
      (answer, n.closeKey.store.keepRequest ⟨path, answer⟩ store) := by
    rw [← hclosed.behind] at hrequest
    show ((requestKey (κ := κ) n.closeKey.store.behind path).1, _) = _
    rw [hrequest]
  cases answer with
  | ok key =>
      simp only [Importer.openKey, hrequest, haudited]
      exact { hclosed with
        key := rfl
        behind := rfl
        report := by rw [hreport]
        tells := hclosed.tells.opened path key store }
  | error cause =>
      simp only [Importer.openKey, hrequest, haudited]
      exact { hclosed with
        behind := rfl
        report := by simp only [Importer.note, hlines, hreport]
        tells := hclosed.tells.refused _ path cause store }

/-- So is a write. -/
theorem Audits.write (h : Audits m n) (w : KeyWrite) : Audits (m.write w) (n.write w) := by
  have hkey := h.key
  have hlines := h.lines
  have hreport := h.report
  cases hheld : m.key with
  | none =>
      rw [hheld] at hkey
      simpa only [Importer.write, hheld, hkey] using h
  | some key =>
      rw [hheld] at hkey
      rcases hset : RegistryStore.setValue m.store key w.name w.type w.data with ⟨answer, store⟩
      have haudited : RegistryStore.setValue n.store key w.name w.type w.data =
          (answer, n.store.keepWrite answer store) := by
        rw [← h.behind] at hset
        show ((RegistryStore.setValue n.store.behind key w.name w.type w.data).1, _) = _
        rw [hset]
      cases answer with
      | ok =>
          simp only [Importer.write, hheld, hkey, hset, haudited]
          exact { h with
            key := rfl
            behind := rfl
            report := by rw [hreport]
            tells := h.tells.set store }
      | error cause =>
          simp only [Importer.write, hheld, hkey, hset, haudited]
          exact { h with
            key := rfl
            behind := rfl
            report := by simp only [Importer.note, hlines, hreport]
            tells := h.tells.unset _ cause store }

/-- **An import does not notice an audit, and its report tells what has been answered.** -/
theorem lockstep_audits : Lockstep (fun _ => True)
    (Audits : Importer ρ σ κ → Importer ρ (AuditedStore σ κ) κ → Prop) where
  state h := h.state
  dialect h := h.dialect
  back h := h
  next h _ := by rw [h.lines]
  fetch {m n} h _ := by
    have hlines := h.lines
    unfold fetch
    rw [hlines]
    split <;> exact { h with
      lines := rfl
      report := by simp only [h.report]
      tells := { h.tells with } }
  enter state h := { h with state := rfl }
  settled {m m' n n'} h hm hn := by
    obtain ⟨hlines, hstore, hkey, hstate, hdialect, hreport⟩ := anew_eq_iff.mp hm
    obtain ⟨hlines', hstore', hkey', hstate', hdialect', hreport'⟩ := anew_eq_iff.mp hn
    exact {
      lines := by rw [hlines, hlines', h.lines]
      state := by rw [hstate, hstate', h.state]
      key := by rw [hkey, hkey', h.key]
      dialect := by rw [hdialect, hdialect', h.dialect]
      behind := by rw [hstore, hstore', h.behind]
      report := by rw [hreport, hreport', h.report]
      tells := by rw [hreport, hstore']; exact h.tells }
  named d h := { h with
    dialect := rfl
    report := by simp only [named, h.report]
    tells := { h.tells with } }
  note h hkinds := h.note hkinds
  openKey path h := h.openKey path
  write w h := h.write w

theorem Audits.finish (h : Audits m n) : Audits m.finish n.finish := by
  have hclosed := h.closeKey
  exact { hclosed with lines := congrArg LineSupply.close hclosed.lines }

end Importer

/-- What an audited store keeps of a key that is asked for. -/
theorem AuditedStore.openKey_eq [RegistryStore σ κ] {store store' : AuditedStore σ κ}
    {root : RootKey} {path : Text} {answer : Except StoreError κ}
    (h : RegistryStore.openKey store root path = (answer, store')) :
    ∃ behind, Importer.requestKey store.behind path = (answer, behind) ∧
      store' = store.keepRequest ⟨path, answer⟩ behind := by
  rcases hrequest : Importer.requestKey (κ := κ) store.behind path with ⟨answer', behind⟩
  have hkept : RegistryStore.openKey store root path =
      (answer', store.keepRequest ⟨path, answer'⟩ behind) := by
    show (_, store.keepRequest ⟨path, _⟩ _) = _
    rw [hrequest]
  rw [hkept] at h
  cases h
  exact ⟨behind, rfl, rfl⟩

end Audited

/-! ### Audits of a store in memory -/

/-- A key that is asked for is opened and logged, or refused without a change; and a path without
a root is refused for this reason. -/
theorem RefusingStore.requestKey_cases {store behind : RefusingStore MemoryStore}
    (h : store.behind.Serves none) {path : Text} {answer : Except StoreError KeyHandle}
    (hrequest : Importer.requestKey store path = (answer, behind)) :
    (RootKey.split? path = none → answer = .error (.unknownRootKey path)) ∧
      ((∃ cause, answer = .error cause ∧ behind = store) ∨
        ∃ key memory, answer = .ok key ∧ behind = { store with behind := memory } ∧
          memory.Serves (some key) ∧ memory.log = store.behind.log ++ [.openKey key.path]) := by
  cases hsplit : RootKey.split? path with
  | none =>
      have hrootless : Importer.requestKey (κ := KeyHandle) store path =
          (.error (.unknownRootKey path), store) := Importer.requestKey_of_no_root hsplit
      rw [hrootless] at hrequest
      cases hrequest
      exact ⟨fun _ => rfl, Or.inl ⟨_, rfl, rfl⟩⟩
  | some split =>
      obtain ⟨root, below⟩ := split
      refine ⟨nofun, ?_⟩
      rcases hopen : store.behind.openKey root below with ⟨answer', memory⟩
      have hasked : Importer.requestKey (κ := KeyHandle) store path =
          (answer', { store with behind := memory }) := by
        rw [Importer.requestKey_of_root hsplit]
        show ((store.behind.openKey root below).1,
          { store with behind := (store.behind.openKey root below).2 }) = _
        rw [hopen]
      rw [hasked] at hrequest
      cases hrequest
      rcases h.openKey_cases hopen with ⟨cause, rfl, rfl⟩ | ⟨key, rfl, hserves, hlog⟩
      · exact Or.inl ⟨cause, rfl, rfl⟩
      · exact Or.inr ⟨key, memory, rfl, rfl, hserves, hlog⟩

/-- A store in memory, behind one that refuses writes, with the answers. -/
abbrev AuditedMemory := AuditedStore (RefusingStore MemoryStore) KeyHandle

/-- The log lists the successes, the failed writes are those that were to be refused, and all paths
without a root are among those that were refused. -/
structure Logs (refuses : Nat → Bool) (store : AuditedMemory) (held : Option KeyHandle) :
    Prop where
  serves : store.behind.behind.Serves held
  refusing : store.behind.refuses = refuses
  opened : store.behind.behind.log.countP StoreOp.isOpenKey =
    store.asked.countP fun r => r.answer.isOk
  set : store.behind.behind.log.countP StoreOp.isWrite =
    store.written.countP fun answer => answer.isOk
  rejected : (List.range store.behind.writes).countP refuses =
    store.written.countP fun answer => !answer.isOk
  rootless : ∀ r ∈ store.asked, RootKey.split? r.path = none →
    r.answer = .error (.unknownRootKey r.path)

section Logs

variable {refuses : Nat → Bool} {store : AuditedMemory}

/-- One more key is asked for. -/
theorem Logs.rootless_keepRequest {held : Option KeyHandle} (h : Logs refuses store held)
    {path : Text} {answer : Except StoreError KeyHandle}
    (hrootless : RootKey.split? path = none → answer = .error (.unknownRootKey path))
    (behind : RefusingStore MemoryStore) :
    ∀ r ∈ (store.keepRequest ⟨path, answer⟩ behind).asked, RootKey.split? r.path = none →
      r.answer = .error (.unknownRootKey r.path) := by
  intro r hr
  rcases List.mem_append.mp hr with hbefore | hlast
  · exact h.rootless r hbefore
  · obtain rfl := List.mem_singleton.mp hlast
    exact hrootless

/-- A value of the key that is held is set and logged, unless the write is to be refused. -/
theorem Logs.setValue {key : KeyHandle} (h : Logs refuses store (some key)) (name : Option Text)
    (type : ValueType) (data : Bytes) :
    Logs refuses (RegistryStore.setValue store key name type data).2 (some key) := by
  have hcount : (List.range (store.behind.writes + 1)).countP refuses =
      (store.written.countP fun answer => !answer.isOk) +
        if refuses store.behind.writes then 1 else 0 := by
    rw [List.range_succ, List.countP_append, List.countP_singleton, h.rejected]
  show Logs refuses (store.keepWrite (store.behind.setValue key name type data).1
    (store.behind.setValue key name type data).2) (some key)
  cases hrefuses : refuses store.behind.writes with
  | true =>
      have hrefused : store.behind.refuses store.behind.writes = true := by
        rw [h.refusing, hrefuses]
      rw [RefusingStore.setValue_of_refused hrefused]
      exact { h with
        set := by
          rw [AuditedStore.keepWrite, List.countP_append, ← h.set]
          rfl
        rejected := by
          rw [AuditedStore.keepWrite, List.countP_append, hcount, hrefuses]
          rfl }
  | false =>
      have haccepted : store.behind.refuses store.behind.writes = false := by
        rw [h.refusing, hrefuses]
      obtain ⟨memory, hset, hserves, -, -, hlog⟩ := h.serves.setValue name type data
      rw [RefusingStore.setValue_of_accepted haccepted hset]
      exact { h with
        serves := hserves
        opened := by
          rw [AuditedStore.keepWrite, hlog, List.countP_append, h.opened]
          rfl
        set := by
          rw [AuditedStore.keepWrite, hlog, List.countP_append, List.countP_append, h.set]
          rfl
        rejected := by
          rw [AuditedStore.keepWrite, List.countP_append, hcount, hrefuses]
          rfl }

/-- **The calls of an import keep this.** -/
theorem keptByCalls_logs (refuses : Nat → Bool) : KeptByCalls (Logs refuses) where
  opened {store store' root path key} h hopen := by
    obtain ⟨behind, hrequest, rfl⟩ := AuditedStore.openKey_eq hopen
    obtain ⟨hrootless, hcases⟩ := RefusingStore.requestKey_cases h.serves hrequest
    rcases hcases with ⟨cause, hanswer, -⟩ | ⟨key', memory, hanswer, rfl, hserves, hlog⟩
    · cases hanswer
    cases hanswer
    exact { h with
      serves := hserves
      opened := by
        rw [AuditedStore.keepRequest, hlog, List.countP_append, List.countP_append, h.opened]
        rfl
      set := by
        rw [AuditedStore.keepRequest, hlog, List.countP_append, h.set]
        rfl
      rootless := h.rootless_keepRequest hrootless _ }
  refused {store store' root path cause} h hopen := by
    obtain ⟨behind, hrequest, rfl⟩ := AuditedStore.openKey_eq hopen
    obtain ⟨hrootless, hcases⟩ := RefusingStore.requestKey_cases h.serves hrequest
    rcases hcases with ⟨-, -, rfl⟩ | ⟨key, memory, hanswer, -⟩
    · exact { h with
        opened := by
          rw [AuditedStore.keepRequest, List.countP_append, ← h.opened]
          rfl
        rootless := h.rootless_keepRequest hrootless _ }
    · cases hanswer
  closed {store key} h := by
    obtain ⟨hserves, -, -, hlog⟩ := h.serves.closeKey
    have hclosed : (RegistryStore.closeKey store key : AuditedMemory).behind.behind.log =
        store.behind.behind.log ++ [.closeKey key.path] := hlog
    exact { h with
      serves := hserves
      opened := by
        rw [hclosed, List.countP_append, h.opened]
        rfl
      set := by
        rw [hclosed, List.countP_append, h.set]
        rfl }
  set name type data h := h.setValue name type data

/-- A store in memory without keys. -/
theorem logs_deny (denied : List Text) (refuses : Nat → Bool) :
    Logs refuses ⟨⟨denied.foldl MemoryStore.deny {}, refuses, 0⟩, [], []⟩ none where
  serves := MemoryStore.serves_deny denied
  refusing := rfl
  opened := congrArg (List.countP _) (MemoryStore.follows_deny denied).log
  set := congrArg (List.countP _) (MemoryStore.follows_deny denied).log
  rejected := rfl
  rootless := nofun

end Logs

/-! ### Runs -/

namespace Importer

section Runs

variable {σ κ : Type} [RegistryStore σ κ] {m : Importer LineReader σ κ}

/-- **The report of any number of runs tells what has been answered.** -/
theorem Audits.runs {n : Importer LineReader (AuditedStore σ κ) κ} (h : Audits m n)
    (hheader : m.state = .header) (k : Nat) :
    (n.runs k).store.behind = (m.runs k).store ∧ (m.runs k).report.Tells (n.runs k).store := by
  cases k with
  | zero => exact ⟨h.behind, h.tells⟩
  | succ k =>
      obtain ⟨-, hran⟩ :=
        lockstep_audits.run (fun _ => trivial) Audits.finish h (Or.inl hheader)
      obtain ⟨hstore, hreport⟩ := m.runs_succ k
      obtain ⟨hstore', -⟩ := n.runs_succ k
      rw [hstore, hstore']
      refine ⟨hran.behind, ?_⟩
      rcases hreport with hreport | hreport <;> rw [hreport]
      · exact hran.tells
      · exact { hran.tells with }

/-- The diagnostics of any number of runs stand in the order of their lines, which have been taken
and are none of the header. -/
theorem diagnostics_runs (hheader : m.state = .header) (hclean : m.report.diagnostics = [])
    (hlines : m.CountsLines) (k : Nat) :
    ((m.runs k).report.diagnostics.Pairwise fun d d' => d.line ≤ d'.line) ∧
      ∀ d ∈ (m.runs k).report.diagnostics, 2 ≤ d.line ∧ d.line ≤ (m.runs k).report.lines := by
  cases k with
  | zero =>
      rw [runs, hclean]
      exact ⟨.nil, fun _ hd => absurd hd List.not_mem_nil⟩
  | succ k =>
      have hsorted := pairwise_run LineReader.counts (Or.inl hheader) hclean
      have hbounds := line_mem_loop LineReader.counts hheader hclean hlines 0
      rw [← report_run] at hbounds
      rcases (m.runs_succ k).2 with hreport | hreport <;> rw [hreport] <;>
        exact ⟨hsorted, hbounds⟩

omit [RegistryStore σ κ] in
/-- A new importer has counted nothing, and one into an audited store audits it. -/
theorem exists_audits {source : Source} {store : σ} {options : ImportOptions}
    (hm : ofSource source store options = .ok m) :
    (∃ n : Importer LineReader (AuditedStore σ κ) κ,
      ofSource source ⟨store, [], []⟩ options = .ok n ∧ Audits m n) ∧
    m.state = .header ∧ m.report.diagnostics = [] ∧ m.CountsLines := by
  have hmap := ofSource_mapStore (κ := κ) (fun store : σ => AuditedStore.mk (κ := κ) store [] [])
    source store options
  rw [hm] at hmap
  obtain ⟨first, second, rest, rfl⟩ := exists_ofFirstBytes hm
  refine ⟨⟨_, hmap, ?_⟩, rfl, rfl, ?_⟩
  · exact ⟨rfl, rfl, rfl, rfl, rfl, rfl, rfl, rfl, rfl, rfl⟩
  · exact (lineNumber_ofFirstBytes first second rest store options).symm

end Runs

end Importer

/-- **A report agrees with what has happened**, after any number of runs on a source, whatever is
denied and whichever writes are refused.  It counts the opened keys and the set values that are in
the log.  There is a diagnostic for each key that was asked for and was not opened, or had no known
root, and one for each write that was refused.  The diagnostics stand in the order of their lines,
all of them behind the header and among those that the report counts; and if the header is one that
can be imported and no read fails, the report counts all lines of the file. -/
theorem report_runs {source : Source} (denied : List Text) (refuses : Nat → Bool)
    {options : ImportOptions} {m : Importer LineReader (RefusingStore MemoryStore) KeyHandle}
    (hm : Importer.ofSource source ⟨denied.foldl MemoryStore.deny {}, refuses, 0⟩ options = .ok m)
    (n : Nat) :
    (m.runs n).report.keysOpened = (m.runs n).store.behind.log.countP StoreOp.isOpenKey ∧
      (m.runs n).report.valuesWritten = (m.runs n).store.behind.log.countP StoreOp.isWrite ∧
      (∃ audited : Importer LineReader AuditedMemory KeyHandle,
        Importer.ofSource source ⟨⟨denied.foldl MemoryStore.deny {}, refuses, 0⟩, [], []⟩ options =
          .ok audited ∧
        (audited.runs n).store.behind = (m.runs n).store ∧
        (m.runs n).report.diagnostics.countP (fun d => d.kind.isKeyOpenFailed) =
          (audited.runs n).store.asked.countP fun r =>
            (RootKey.split? r.path).isNone || !r.answer.isOk) ∧
      (m.runs n).report.diagnostics.countP (fun d => d.kind.isSetValueFailed) =
        (List.range (m.runs n).store.writes).countP refuses ∧
      ((m.runs n).report.diagnostics.Pairwise fun d d' => d.line ≤ d'.line) ∧
      (∀ d ∈ (m.runs n).report.diagnostics, 2 ≤ d.line ∧ d.line ≤ (m.runs n).report.lines) ∧
      ∀ bytes, source.Delivers bytes → 0 < n →
        (Dialect.ofHeader (firstLine options.page bytes)).isImportable = true →
        (m.runs n).report.lines = (fileLines options.page bytes).length := by
  obtain ⟨⟨audited, haudited, haudits⟩, hheader, hclean, hlines⟩ := Importer.exists_audits hm
  obtain ⟨hbehind, htells⟩ := haudits.runs hheader n
  obtain ⟨hsorted, hbounds⟩ := Importer.diagnostics_runs hheader hclean hlines n
  obtain ⟨hstore, hkey⟩ := Importer.fresh_ofSource haudited
  have hlogs : Logs refuses (audited.runs n).store none :=
    (Importer.runs_keeps (keptByCalls_logs refuses) (hstore ▸ logs_deny denied refuses) hkey n).1
  have hlost : ∀ r ∈ (audited.runs n).store.asked,
      ((RootKey.split? r.path).isNone || !r.answer.isOk) = !r.answer.isOk := by
    intro r hr
    cases hsplit : RootKey.split? r.path with
    | some split => rfl
    | none =>
        rw [hlogs.rootless r hr hsplit]
        rfl
  rw [← hbehind]
  refine ⟨htells.keysOpened.trans hlogs.opened.symm, htells.valuesWritten.trans hlogs.set.symm,
    ⟨audited, haudited, rfl, ?_⟩, htells.setValueFailed.trans hlogs.rejected.symm, hsorted,
    hbounds, ?_⟩
  · rw [htells.keyOpenFailed]
    exact (List.countP_congr fun r hr => by rw [hlost r hr]).symm
  · intro bytes hdelivers hpos himportable
    obtain ⟨k, rfl⟩ := Nat.exists_eq_succ_of_ne_zero (Nat.pos_iff_ne_zero.mp hpos)
    have hall := Importer.lines_of_delivers hdelivers hm himportable
    rcases (m.runs_succ k).2 with hreport | hreport <;>
      exact (congrArg ImportReport.lines hreport).trans hall

/-- A key without a known root, a denied one, two values and a list of bytes that breaks off. -/
def unluckyText : Text :=
  "REGEDIT4\n[HKEY_NOWHERE\\A]\n@=\"x\"\n[HKEY_USERS\\A\\B]\n[HKEY_USERS\\B]\n".toList ++
    "@=\"x\"\n\"n\"=dword:1\n\"h\"=hex:01,\\\n".toList

/-- It is run twice, where the first write is refused. -/
theorem report_runs_unluckyText :
    ∃ m : Importer LineReader (RefusingStore MemoryStore) KeyHandle,
      Importer.ofSource (.ofBytes (Utf8.encode unluckyText))
          ⟨["HKEY_USERS\\a".toList].foldl MemoryStore.deny {}, fun i => i == 0, 0⟩ {} = .ok m ∧
        (m.runs 2).report.keysOpened = 1 ∧ (m.runs 2).report.valuesWritten = 1 ∧
        (m.runs 2).report.diagnostics.countP (fun d => d.kind.isKeyOpenFailed) = 2 ∧
        (m.runs 2).report.diagnostics.countP (fun d => d.kind.isSetValueFailed) = 1 ∧
        (m.runs 2).report.diagnostics.map (fun d => d.line) = [2, 4, 6, 8] ∧
        (m.runs 2).report.lines = 8 := by
  have hm : Importer.ofSource (κ := KeyHandle) (.ofBytes (Utf8.encode unluckyText))
      (⟨["HKEY_USERS\\a".toList].foldl MemoryStore.deny {}, fun i => i == 0, 0⟩ :
        RefusingStore MemoryStore) {} = .ok _ := rfl
  obtain ⟨hopened, hwritten, -, hrejected, -, -, hlines⟩ :=
    report_runs ["HKEY_USERS\\a".toList] (fun i => i == 0) hm 2
  have hall := hlines _ (Source.delivers_ofBytes _) Nat.two_pos (by decide +kernel)
  refine ⟨_, hm, ?_⟩
  rw [hopened, hwritten, hrejected, hall]
  decide +kernel

end RegistryText
