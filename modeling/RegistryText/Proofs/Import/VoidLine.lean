import RegistryText.Proofs.Import.Lockstep

/-!
# Lines that a problem voids

A turn that notes a line-local problem does nothing else: **it keeps the open key and
calls no store** (`kept_of_isLineLocal`), and stands in front of the next line of the
body or at the end of all lines.

Statements that call the store note refusals of the store only, so a line-local
problem comes from a line that is at fault or from a list of bytes that breaks off.
-/

namespace RegistryText.Importer

variable {ρ ρ' σ κ : Type}

/-- The line-local problems noted so far. -/
def lineLocal (m : Importer ρ σ κ) : List Diagnostic :=
  m.report.matching DiagnosticKind.isLineLocal

theorem lineLocal_congr {m : Importer ρ σ κ} {m' : Importer ρ' σ κ}
    (h : m'.report.diagnostics = m.report.diagnostics) : m'.lineLocal = m.lineLocal := by
  simp only [lineLocal, ImportReport.matching, h]

theorem lineLocal_ne {m m' : Importer ρ σ κ} {noted : List Diagnostic}
    (hnoted : m'.report.diagnostics = m.report.diagnostics ++ noted)
    (hlocal : ∃ d ∈ noted, d.kind.isLineLocal = true) : m'.lineLocal ≠ m.lineLocal := by
  intro hsame
  simp only [lineLocal, ImportReport.matching, hnoted, List.filter_append] at hsame
  obtain ⟨d, hd, hkind⟩ := hlocal
  have hnone := List.filter_eq_nil_iff.mp (List.append_right_eq_self.mp hsame) d hd
  exact hnone hkind

variable [LineSupply ρ]

/-- Other problems do not count. -/
theorem lineLocal_note (m : Importer ρ σ κ) {kinds : List DiagnosticKind}
    (hkinds : ∀ kind ∈ kinds, kind.isLineLocal = false) :
    (m.note kinds).lineLocal = m.lineLocal := by
  have hnone : (kinds.map (Diagnostic.mk (LineSupply.lineNumber m.lines))).filter
      (fun d => d.kind.isLineLocal) = [] := by
    rw [List.filter_eq_nil_iff]
    intro d hd
    obtain ⟨kind, hkind, rfl⟩ := List.mem_map.mp hd
    simp [hkinds kind hkind]
  simp only [lineLocal, ImportReport.matching, note, List.filter_append]
  rw [hnone, List.append_nil]

variable [RegistryStore σ κ]

/-- A key that is not opened is no line-local problem. -/
theorem lineLocal_openKey (m : Importer ρ σ κ) (path : Text) :
    (m.openKey path).2.lineLocal = m.lineLocal := by
  have hclosed : m.closeKey.lineLocal = m.lineLocal :=
    lineLocal_congr (congrArg ImportReport.diagnostics m.report_closeKey)
  simp only [openKey]
  rcases requestKey (κ := κ) m.closeKey.store path with ⟨cause | key, store⟩
  · exact (lineLocal_note _ (by simp [DiagnosticKind.isLineLocal])).trans hclosed
  · exact hclosed

/-- A value that is not set is no line-local problem. -/
theorem lineLocal_write (m : Importer ρ σ κ) (w : KeyWrite) :
    (m.write w).lineLocal = m.lineLocal := by
  unfold write
  split
  · rfl
  · split
    · rfl
    · exact lineLocal_note _ (by simp [DiagnosticKind.isLineLocal])

variable {m m' : Importer ρ σ κ}

/-- A statement with a line-local problem keeps the open key and the store, and no read
has failed. -/
theorem kept_of_carryOut {statement : Statement}
    (hlocal : (m.carryOut statement).2.lineLocal ≠ m.lineLocal) :
    (m.carryOut statement).2.key = m.key ∧ (m.carryOut statement).2.store = m.store ∧
      ∀ e, (m.carryOut statement).1 ≠ .failed e := by
  cases statement with
  | nothing => exact absurd rfl hlocal
  | key path => exact absurd (lineLocal_openKey m path) hlocal
  | entry path w => exact absurd ((lineLocal_write _ w).trans (lineLocal_openKey m path)) hlocal
  | value w => exact absurd (lineLocal_write m w) hlocal
  | fault kind => exact ⟨rfl, rfl, by simp [carryOut]⟩
  | list name type bytes =>
      obtain ⟨-, -, -, -, hkey, hstore⟩ := m.kept_of_gather bytes
      have hsame := lineLocal_congr (m.diagnostics_gather bytes)
      simp only [carryOut] at hlocal ⊢
      revert hlocal hkey hstore hsame
      rcases m.gather bytes with ⟨ending, m'⟩
      intro hlocal hkey hstore hsame
      cases ending with
      | complete bytes => exact absurd ((lineLocal_write m' _).trans hsame) hlocal
      | malformed | missing => exact ⟨hkey, hstore, by simp⟩
      | failed e => exact absurd hsame hlocal

/-- Unknown escapes are no line-local problems. -/
theorem kept_of_obey {r : Reading} (hlocal : (m.obey r).2.lineLocal ≠ m.lineLocal) :
    (m.obey r).2.key = m.key ∧ (m.obey r).2.store = m.store ∧ ∀ e, (m.obey r).1 ≠ .failed e := by
  refine kept_of_carryOut (m := m.note (r.unknown.map .unknownEscape)) ?_
  rw [lineLocal_note]
  · exact hlocal
  · intro kind hkind
    obtain ⟨c, -, rfl⟩ := List.mem_map.mp hkind
    rfl

/-- **A turn with a line-local problem keeps what the importer holds.** -/
theorem kept_of_isLineLocal (hfront : m.state = m.front) {place : Nat}
    (hlocal : (m.turn place).2.lineLocal ≠ m.lineLocal) :
    (m.turn place).2.state = m.state ∧ (m.turn place).2.dialect = m.dialect ∧
      (m.turn place).2.key = m.key ∧ (m.turn place).2.store = m.store ∧
      ∀ e, (m.turn place).1 ≠ .failed e := by
  rcases hfetch : m.fetch with ⟨e | _ | _, m'⟩
  · rw [turn_of_error hfront hfetch] at hlocal
    exact absurd (lineLocal_congr (diagnostics_fetch hfetch)) hlocal
  · rw [turn_of_end hfront hfetch] at hlocal
    exact absurd (lineLocal_congr (diagnostics_fetch hfetch)) hlocal
  · obtain ⟨hprogress, -, hstore, hkey, hstate, hturned, hreport⟩ :=
      settled_eq_iff.mp (turn_of_line hfront hfetch place)
    obtain ⟨-, -, -, hdialect, hkey', hstore'⟩ := kept_of_fetch hfetch
    have hbefore : (m'.anew m.front).lineLocal = m.lineLocal :=
      lineLocal_congr (m := m) (diagnostics_fetch hfetch :)
    rw [lineLocal_congr (congrArg ImportReport.diagnostics hreport), ← hbefore] at hlocal
    obtain ⟨hkept, hheld, hread⟩ := kept_of_obey hlocal
    obtain ⟨hsame, ⟨e, hfailed⟩ | hstays⟩ :=
      front_obey (m'.anew m.front) (.ofBody m.front m'.line)
    · exact absurd hfailed (hread e)
    refine ⟨hstate.trans (hstays.trans hfront.symm),
      hturned.trans (hsame.trans hdialect),
      hkey.trans (hkept.trans hkey'), hstore.trans (hheld.trans hstore'), ?_⟩
    intro e hfailed
    rw [hfailed] at hprogress
    rcases hobeyed : ((m'.anew m.front).obey (.ofBody m.front m'.line)).1 with next | _ | e' <;>
      rw [hobeyed] at hprogress
    · cases hprogress
    · cases hprogress
    · exact hread e' hobeyed

/-! ### The end of all lines -/

omit [RegistryStore σ κ] in
theorem end_of_fetch (h : m.fetch = (.ok false, m')) :
    ∃ lines, LineSupply.next lines = (.ok none, m'.lines) := by
  unfold fetch at h
  split at h <;> cases h
  next rest hnext => exact ⟨m.lines, hnext⟩

omit [RegistryStore σ κ] in
/-- A list that breaks off has met the end of all lines. -/
theorem end_of_gather {bytes : Bytes} (h : m.gather bytes = (.missing, m')) :
    ∃ lines, LineSupply.next lines = (.ok none, m'.lines) := by
  fun_induction gather m bytes with
  | case1 | case4 | case5 => cases h
  | case2 m bytes m'' hfetch =>
      cases h
      exact end_of_fetch hfetch
  | case3 m bytes m'' hfetch hless hcomment ih
  | case6 m bytes m'' hfetch hless hlist more hread ih => exact ih h

/-- So has a statement that ends the loop without a failure. -/
theorem end_of_carryOut {statement : Statement}
    (h : (m.carryOut statement).1.unplaced = .finished) :
    ∃ lines, LineSupply.next lines = (.ok none, (m.carryOut statement).2.lines) := by
  cases statement with
  | nothing | key path | entry path w | value w | fault kind => cases h
  | list name type bytes =>
      simp only [carryOut] at h ⊢
      rcases hgather : m.gather bytes with ⟨ending, m'⟩
      rw [hgather] at h
      cases ending with
      | complete bytes | malformed | failed e => cases h
      | missing =>
          have hend := end_of_gather hgather
          exact hend

/-- A turn of the body that ends the loop without a failure has met the end of all
lines. -/
theorem end_of_turn (hfront : m.state = m.front) {place : Nat}
    (h : m.turn place = (.finished, m')) :
    ∃ lines, LineSupply.next lines = (.ok none, m'.lines) := by
  rcases hfetch : m.fetch with ⟨e | _ | _, m''⟩
  · rw [turn_of_error hfront hfetch] at h
    cases h
  · rw [turn_of_end hfront hfetch] at h
    cases h
    exact end_of_fetch hfetch
  · obtain ⟨hprogress, hlines, -⟩ := settled_eq_iff.mp (turn_of_line hfront hfetch place)
    rw [h] at hprogress hlines
    obtain ⟨lines, hnext⟩ := end_of_carryOut (m := (m''.anew m.front).note _) hprogress.symm
    exact ⟨lines, hnext.trans (by rw [hlines]; rfl)⟩

end RegistryText.Importer
