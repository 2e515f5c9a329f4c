import RegistryText.Proofs.Import.Statement
import RegistryText.Proofs.Import.WrittenSteps

/-!
# What a turn leaves to the next

The steps of a turn hand a place from one to the next, cut the line, and keep
the parts of a value until it is set.  All of this is gone when the next line is
taken: `settled` is the result of a turn without it, and `anew` is the importer
in front of a line without it.

The calls of the store and the lines of a list do not look at it either, so they
may be made anew (`anew_openKey`, `anew_write`, `takesAlike_anew`).
-/

namespace RegistryText

/-- The progress without its place. -/
def Progress.unplaced : Progress → Progress
  | .proceed _ => .proceed 0
  | .finished => .finished
  | .failed e => .failed e

namespace Importer

variable {ρ σ κ : Type}

/-- The importer in a state, without what is left of its line and of a value in
it. -/
def anew (m : Importer ρ σ κ) (state : ImportState) : Importer ρ σ κ :=
  { m with
    line := []
    state := state
    valueName := none
    dataType := .none
    staged := none }

/-- The result of a turn, as far as a later turn looks at it. -/
def settled (r : Progress × Importer ρ σ κ) : Progress × Importer ρ σ κ :=
  (r.1.unplaced, r.2.anew r.2.state)

/-- What is the same about two importers that are anew alike. -/
theorem anew_eq_iff {m n : Importer ρ σ κ} : n.anew n.state = m.anew m.state ↔
    n.lines = m.lines ∧ n.store = m.store ∧ n.key = m.key ∧ n.state = m.state ∧
      n.dialect = m.dialect ∧ n.report = m.report := by
  simp only [anew, Importer.mk.injEq, true_and]
  constructor
  · rintro ⟨hlines, hstore, hstate, hkey, hdialect, hreport⟩
    exact ⟨hlines, hstore, hkey, hstate, hdialect, hreport⟩
  · rintro ⟨hlines, hstore, hkey, hstate, hdialect, hreport⟩
    exact ⟨hlines, hstore, hstate, hkey, hdialect, hreport⟩

/-- What is the same about two results that are settled alike. -/
theorem settled_eq_iff {a b : Progress × Importer ρ σ κ} : settled a = settled b ↔
    a.1.unplaced = b.1.unplaced ∧ a.2.lines = b.2.lines ∧ a.2.store = b.2.store ∧
      a.2.key = b.2.key ∧ a.2.state = b.2.state ∧ a.2.dialect = b.2.dialect ∧
      a.2.report = b.2.report := by
  rw [settled, settled, Prod.mk.injEq, anew_eq_iff]

/-- The state in front of a line of the body. -/
def front (m : Importer ρ σ κ) : ImportState :=
  if m.dialect = some .windows31 then .windows31Line else .lineStart

/-- A line is read from its front. -/
theorem rank_front (m : Importer ρ σ κ) : m.front.rank = 0 := by
  unfold front
  split <;> rfl

/-- The dialect alone decides on the kind of line. -/
theorem front_congr {m m' : Importer ρ σ κ} (h : m'.dialect = m.dialect) : m'.front = m.front := by
  rw [front, h, front]

section Store

variable [LineSupply ρ] [RegistryStore σ κ] (m : Importer ρ σ κ)

/-! ### Calls of the store -/

/-- What is known of a line plays no part in a write. -/
theorem anew_write (state : ImportState) (w : KeyWrite) :
    (m.write w).anew state = (m.anew state).write w := by
  cases hkey : m.key with
  | none => simp [write, anew, hkey]
  | some key =>
      rcases hset : RegistryStore.setValue m.store key w.name w.type w.data with ⟨answer, store⟩
      cases answer <;> simp [write, anew, note, hkey, hset]

/-- Nor does it when a key is opened. -/
theorem anew_openKey (state : ImportState) (path : Text) :
    (m.openKey path).2.anew state = ((m.anew state).openKey path).2 := by
  cases hkey : m.key with
  | none =>
      rcases hopen : requestKey (κ := κ) m.store path with ⟨answer, store⟩
      cases answer <;> simp [openKey, closeKey, anew, note, hkey, hopen]
  | some key =>
      rcases hopen : requestKey (κ := κ) (RegistryStore.closeKey m.store key) path with
        ⟨answer, store⟩
      cases answer <;> simp [openKey, closeKey, anew, note, hkey, hopen]

omit [LineSupply ρ] in
/-- Closing a key is not reported. -/
theorem report_closeKey : m.closeKey.report = m.report := by
  unfold closeKey
  split <;> rfl

omit [LineSupply ρ] in
/-- Closing a key leaves the state and the dialect. -/
theorem closeKey_kept : m.closeKey.state = m.state ∧ m.closeKey.dialect = m.dialect := by
  unfold closeKey
  split <;> exact ⟨rfl, rfl⟩

/-- Opening one leaves the state, whether it is refused or not. -/
theorem state_openKey (path : Text) : (m.openKey path).2.state = m.state := by
  simp only [openKey]
  split <;> exact m.closeKey_kept.1

/-- It leaves the dialect. -/
theorem dialect_openKey (path : Text) : (m.openKey path).2.dialect = m.dialect := by
  simp only [openKey]
  split <;> exact m.closeKey_kept.2

/-- It leaves the dialect in the report. -/
theorem reported_openKey (path : Text) :
    (m.openKey path).2.report.dialect = m.report.dialect := by
  have hclosed : m.closeKey.report.dialect = m.report.dialect :=
    congrArg ImportReport.dialect m.report_closeKey
  simp only [openKey]
  split <;> exact hclosed

/-- No key is open behind a refusal. -/
theorem key_of_refused {m m' : Importer ρ σ κ} {path : Text} (h : m.openKey path = (false, m')) :
    m'.key = none := by
  have hclosed : m.closeKey.key = none := by
    cases hkey : m.key <;> simp [closeKey, hkey]
  simp only [openKey] at h
  split at h <;> cases h
  exact hclosed

/-- A write takes no line. -/
theorem lines_write (w : KeyWrite) : (m.write w).lines = m.lines := by
  unfold write
  split
  · rfl
  · split <;> rfl

/-- It leaves the key open. -/
theorem key_write (w : KeyWrite) : (m.write w).key = m.key := by
  cases hkey : m.key with
  | none => simp [write, hkey]
  | some key =>
      rcases hset : RegistryStore.setValue m.store key w.name w.type w.data with ⟨answer, store⟩
      cases answer <;> simp [write, note, hkey, hset]

/-- It stays in its state. -/
theorem state_write (w : KeyWrite) : (m.write w).state = m.state := by
  unfold write
  split
  · rfl
  · split <;> rfl

/-- It leaves the dialect. -/
theorem dialect_write (w : KeyWrite) : (m.write w).dialect = m.dialect := by
  unfold write
  split
  · rfl
  · split <;> rfl

/-- What is staged is written under the name and the type that have been read. -/
theorem setStaged_eq : m.setStaged =
    Importer.write { m with staged := none } ⟨m.valueName, m.dataType, m.staged.getD []⟩ := by
  cases hkey : m.key with
  | none => simp [setStaged, write, hkey]
  | some key =>
      rcases hset : RegistryStore.setValue m.store key m.valueName m.dataType (m.staged.getD [])
        with ⟨answer, store⟩
      cases answer <;> simp [setStaged, write, note, hkey, hset]

/-- Setting a value leaves the dialect, whether the store sets it or not. -/
theorem dialect_setStaged : m.setStaged.dialect = m.dialect := by
  rw [setStaged_eq, dialect_write]

/-- So does the one in the report. -/
theorem reported_setStaged : m.setStaged.report.dialect = m.report.dialect := by
  unfold setStaged
  dsimp only
  split
  · rfl
  · split <;> rfl

end Store

/-! ### Lines of a list -/

section Lines

variable [LineSupply ρ]

/-- What stays as it was when a line is taken. -/
theorem kept_of_fetch {m m' : Importer ρ σ κ} {answer : Except ImportError Bool}
    (h : m.fetch = (answer, m')) :
    m'.state = m.state ∧ m'.valueName = m.valueName ∧ m'.dataType = m.dataType ∧
      m'.dialect = m.dialect ∧ m'.key = m.key ∧ m'.store = m.store := by
  unfold fetch at h
  split at h <;> cases h <;> exact ⟨rfl, rfl, rfl, rfl, rfl, rfl⟩

/-- Nothing is noted when a line is taken. -/
theorem diagnostics_fetch {m m' : Importer ρ σ κ} {answer : Except ImportError Bool}
    (h : m.fetch = (answer, m')) : m'.report.diagnostics = m.report.diagnostics := by
  unfold fetch at h
  split at h <;> cases h <;> rfl

/-- The dialect in the report stays when a line is taken. -/
theorem reported_fetch {m m' : Importer ρ σ κ} {answer : Except ImportError Bool}
    (h : m.fetch = (answer, m')) : m'.report.dialect = m.report.dialect := by
  unfold fetch at h
  split at h <;> cases h <;> rfl

/-- A list that a failed read interrupts fails. -/
theorem gather_of_error {m m' : Importer ρ σ κ} {e : ImportError} {bytes : Bytes}
    (hfetch : m.fetch = (.error e, m')) : m.gather bytes = (.failed e, m') := by
  rw [gather]
  split <;> simp_all

/-- A list whose lines are over is missing its end. -/
theorem gather_of_end {m m' : Importer ρ σ κ} {bytes : Bytes}
    (hfetch : m.fetch = (.ok false, m')) : m.gather bytes = (.missing, m') := by
  rw [gather]
  split <;> simp_all

/-- A comment within a list is passed over. -/
theorem gather_of_comment {m m' : Importer ρ σ κ} {bytes : Bytes}
    (hfetch : m.fetch = (.ok true, m')) (hcomment : m'.line.skipBlanks.startsWith [';'] = true) :
    m.gather bytes = m'.gather bytes := by
  rw [gather]
  split <;> simp_all

/-- What a line that is no comment does to the list that it continues. -/
theorem gather_of_line {m m' : Importer ρ σ κ} {bytes : Bytes}
    (hfetch : m.fetch = (.ok true, m'))
    (hlist : m'.line.skipBlanks.startsWith [';'] = false) :
    m.gather bytes = match HexList.readLine m'.line.skipBlanks with
      | (none, _) => (.malformed, m')
      | (some .complete, more) => (.complete (bytes ++ more), m')
      | (some .continued, more) => m'.gather (bytes ++ more) := by
  rcases hread : HexList.readLine m'.line.skipBlanks with ⟨ending, more⟩
  rw [gather]
  split <;> rcases ending with _ | _ | _ <;> simp_all

/-- A line is fetched by one call, failed or not. -/
theorem lines_fetch {m m' : Importer ρ σ κ} {answer : Except ImportError Bool}
    (h : m.fetch = (answer, m')) : m'.lines = (LineSupply.next m.lines).2 := by
  unfold fetch at h
  split at h <;> cases h <;> simp_all

/-- A relation between importers that take the same lines, as long as `Open` holds
of the lines that are left to the first one. -/
structure TakesAlike {ρ' τ μ : Type} [LineSupply ρ'] (Open : ρ → Prop)
    (R : Importer ρ σ κ → Importer ρ' τ μ → Prop) : Prop where
  back : ∀ {lines}, Open (LineSupply.next lines).2 → Open lines
  fetch : ∀ {m n m' answer}, R m n → m.fetch = (answer, m') → Open m'.lines →
    ∃ n', n.fetch = (answer, n') ∧ R m' n' ∧ (answer = .ok true → n'.line = m'.line)

namespace TakesAlike

variable {ρ' τ μ : Type} [LineSupply ρ'] {Open : ρ → Prop}
  {R : Importer ρ σ κ → Importer ρ' τ μ → Prop} {m m' : Importer ρ σ κ} {n : Importer ρ' τ μ}

/-- The lines were open before a fetch that leaves them so. -/
theorem back_fetch (hR : TakesAlike Open R) {answer : Except ImportError Bool}
    (hfetch : m.fetch = (answer, m')) (h : Open m'.lines) : Open m.lines :=
  hR.back (lines_fetch hfetch ▸ h)

/-- So they were before a list was gathered, by induction over its lines. -/
theorem back_gather (hR : TakesAlike Open R) (m : Importer ρ σ κ) (bytes : Bytes)
    (h : Open (m.gather bytes).2.lines) : Open m.lines := by
  fun_induction Importer.gather m bytes with
  | case1 m bytes e m' hfetch | case2 m bytes m' hfetch
  | case4 m bytes m' hfetch | case5 m bytes m' hfetch => exact hR.back_fetch hfetch h
  | case3 m bytes m' hfetch hless hcomment ih
  | case6 m bytes m' hfetch hless hlist more hread ih => exact hR.back_fetch hfetch (ih h)

/-- The same lines continue a list in the same way. -/
theorem gather (hR : TakesAlike Open R) (h : R m n) (bytes : Bytes)
    (hopen : Open (m.gather bytes).2.lines) :
    (n.gather bytes).1 = (m.gather bytes).1 ∧ R (m.gather bytes).2 (n.gather bytes).2 := by
  fun_induction Importer.gather m bytes generalizing n with
  | case1 m bytes e m' hfetch =>
      obtain ⟨n', hfetch', hrelated, -⟩ := hR.fetch h hfetch hopen
      rw [gather_of_error hfetch']
      exact ⟨rfl, hrelated⟩
  | case2 m bytes m' hfetch =>
      obtain ⟨n', hfetch', hrelated, -⟩ := hR.fetch h hfetch hopen
      rw [gather_of_end hfetch']
      exact ⟨rfl, hrelated⟩
  | case3 m bytes m' hfetch hless hcomment ih =>
      obtain ⟨n', hfetch', hrelated, hline⟩ := hR.fetch h hfetch (hR.back_gather m' bytes hopen)
      rw [gather_of_comment hfetch' (by rw [hline rfl, hcomment])]
      exact ih hrelated hopen
  | case4 m bytes m' hfetch hless hlist more hread
  | case5 m bytes m' hfetch hless hlist more hread =>
      obtain ⟨n', hfetch', hrelated, hline⟩ := hR.fetch h hfetch hopen
      rw [← hline rfl] at hlist hread
      rw [gather_of_line hfetch' (by simpa using hlist), hread]
      exact ⟨rfl, hrelated⟩
  | case6 m bytes m' hfetch hless hlist more hread ih =>
      obtain ⟨n', hfetch', hrelated, hline⟩ :=
        hR.fetch h hfetch (hR.back_gather m' (bytes ++ more) hopen)
      rw [← hline rfl] at hlist hread
      rw [gather_of_line hfetch' (by simpa using hlist), hread]
      exact ih hrelated hopen

end TakesAlike

/-- A line is taken whatever is left of the last one. -/
theorem takesAlike_anew : TakesAlike (fun _ => True)
    fun m n : Importer ρ σ κ => n.anew .lineStart = m.anew .lineStart where
  back h := h
  fetch := by
    intro m n m' answer h hfetch hopen
    obtain ⟨hlines, hstore, hkey, hdialect, hreport⟩ : n.lines = m.lines ∧ n.store = m.store ∧
        n.key = m.key ∧ n.dialect = m.dialect ∧ n.report = m.report := by
      simpa [anew] using h
    rcases hnext : LineSupply.next m.lines with ⟨given, rest⟩
    rcases given with message | _ | line <;> simp only [Importer.fetch, hnext] at hfetch <;>
      cases hfetch <;>
      exact ⟨_, by rw [Importer.fetch, hlines, hnext],
        by simp [anew, hstore, hkey, hdialect, hreport], by simp⟩

/-- What stays as it was while the lines of a list are taken. -/
theorem kept_of_gather (m : Importer ρ σ κ) (bytes : Bytes) :
    (m.gather bytes).2.state = m.state ∧ (m.gather bytes).2.valueName = m.valueName ∧
      (m.gather bytes).2.dataType = m.dataType ∧ (m.gather bytes).2.dialect = m.dialect ∧
      (m.gather bytes).2.key = m.key ∧ (m.gather bytes).2.store = m.store := by
  fun_induction gather m bytes with
  | case1 m bytes e m' hfetch | case2 m bytes m' hfetch
  | case4 m bytes m' hfetch | case5 m bytes m' hfetch => exact kept_of_fetch hfetch
  | case3 m bytes m' hfetch hless hcomment ih | case6 m bytes m' hfetch hless hlist more hread ih =>
      have hkept := kept_of_fetch hfetch
      simp_all

/-- Nothing is noted while the lines of a list are taken. -/
theorem diagnostics_gather (m : Importer ρ σ κ) (bytes : Bytes) :
    (m.gather bytes).2.report.diagnostics = m.report.diagnostics := by
  fun_induction gather m bytes with
  | case1 m bytes e m' hfetch | case2 m bytes m' hfetch
  | case4 m bytes m' hfetch | case5 m bytes m' hfetch => exact diagnostics_fetch hfetch
  | case3 m bytes m' hfetch hless hcomment ih | case6 m bytes m' hfetch hless hlist more hread ih =>
      exact ih.trans (diagnostics_fetch hfetch)

end Lines

/-! ### Turns that end alike -/

/-- If two turns end alike and leave related importers, then either both loops go on from
related importers, or both end alike and leave related ones. -/
theorem loops_of_turns {ρ' τ μ : Type} [LineSupply ρ] [LineSupply ρ'] [RegistryStore σ κ]
    [RegistryStore τ μ] {R : Importer ρ σ κ → Importer ρ' τ μ → Prop} {m : Importer ρ σ κ}
    {n : Importer ρ' τ μ} {place place' : Nat}
    (hprogress : (n.turn place').1.unplaced = (m.turn place).1.unplaced)
    (hrelated : R (m.turn place).2 (n.turn place').2) :
    (∃ next next' m' n', m.turn place = (.proceed next, m') ∧
      n.turn place' = (.proceed next', n') ∧ R m' n') ∨
      (n.loop place').1 = (m.loop place).1 ∧ R (m.loop place).2 (n.loop place').2 := by
  rcases hturn : m.turn place with ⟨next | _ | e, m'⟩ <;>
    rcases hturn' : n.turn place' with ⟨next' | _ | e', n'⟩ <;>
    rw [hturn, hturn'] at hprogress hrelated <;> cases hprogress
  · exact Or.inl ⟨next, next', m', n', rfl, rfl, hrelated⟩
  · rw [loop_of_last_turn hturn, loop_of_last_turn hturn']
    exact Or.inr ⟨rfl, hrelated⟩
  · rw [loop_of_failed_turn hturn, loop_of_failed_turn hturn']
    exact Or.inr ⟨rfl, hrelated⟩

end Importer

end RegistryText
