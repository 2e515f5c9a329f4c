import RegistryText.Proofs.Import.FirstLine

/-!
# Lines in reports

A report counts the lines that have been taken (`invariant_countsLines`), so all that is noted is
noted of lines up to this count; and nothing is noted of the header (`line_mem_loop`).  The body of
a file is read to its end, unless a read fails.  Hence **the report of an import counts all lines of
its file, if the header is one that can be imported** (`lines_of_delivers`).
-/

namespace RegistryText.Importer

section Lines

variable {ρ σ κ : Type} [LineSupply ρ] [RegistryStore σ κ] {m m' : Importer ρ σ κ}

/-! ### Lines that have been taken -/

/-- The report counts the lines that have been taken. -/
def CountsLines (m : Importer ρ σ κ) : Prop :=
  m.report.lines = LineSupply.lineNumber m.lines

theorem reportLines_openKey (m : Importer ρ σ κ) (path : Text) :
    (m.openKey path).2.report.lines = m.report.lines := by
  have hclosed : m.closeKey.report.lines = m.report.lines :=
    congrArg ImportReport.lines m.report_closeKey
  simp only [openKey]
  split <;> exact hclosed

theorem reportLines_write (m : Importer ρ σ κ) (w : KeyWrite) :
    (m.write w).report.lines = m.report.lines := by
  unfold write
  split
  · rfl
  · split <;> rfl

theorem invariant_countsLines (hcount : LineSupply.Counts ρ) :
    Invariant (CountsLines : Importer ρ σ κ → Prop) where
  enter _ h := h
  settled {m m'} h hsame := by
    obtain ⟨hlines, -, -, -, -, hreport⟩ := anew_eq_iff.mp hsame
    rw [CountsLines, hlines, hreport]
    exact h
  named _ h := h
  note _ h := h
  openKey {m} path h := by
    rw [CountsLines, reportLines_openKey, lines_openKey]
    exact h
  write {m} w h := by
    rw [CountsLines, reportLines_write, lines_write]
    exact h
  fetch {m} h := by
    rcases hnext : LineSupply.next m.lines with ⟨message | _ | line, rest⟩ <;>
      simp only [fetch, hnext]
    · exact h.trans (hcount.lineNumber_error hnext).symm
    · exact h.trans (hcount.lineNumber_none hnext).symm
    · rfl

/-! ### Lines of diagnostics -/

omit [RegistryStore σ κ] in
theorem diagnostics_headerStep (m : Importer ρ σ κ) :
    m.headerStep.2.report.diagnostics = m.report.diagnostics := by
  unfold headerStep
  split
  next e m' hfetch => exact diagnostics_fetch hfetch
  next m' hfetch => exact m'.diagnostics_classify.trans (diagnostics_fetch hfetch)
  next m' hfetch =>
    have hfetched : m'.report.diagnostics = m.report.diagnostics := diagnostics_fetch hfetch
    exact (diagnostics_classify { m' with line := [] }).trans hfetched

/-- The turn in front of a header that can be imported goes on. -/
theorem turn_of_isImportable (hheader : m.state = .header) {first? : Option Text} {rest : ρ}
    (hnext : LineSupply.next m.lines = (.ok first?, rest))
    (h : (Dialect.ofHeader (first?.getD [])).isImportable = true) :
    ∃ m', m.turn 0 = (.proceed 0, m') ∧ m'.state = m'.front := by
  obtain ⟨m', hclassify, -⟩ := classify_of_isImportable (m := { m with
    lines := rest
    line := first?.getD []
    report := { m.report with
      lines := if first?.isSome then LineSupply.lineNumber rest else m.report.lines } }) h
  have hturn : m.turn 0 = (.proceed 0, m') := by
    rw [turn_header hheader, headerStep_of_next hnext, hclassify]
  exact ⟨m', hturn, front_turn (Or.inl hheader) hturn⟩

/-- **What a loop notes is noted of lines behind the header**, up to the last one that it takes. -/
theorem line_mem_loop (hcount : LineSupply.Counts ρ) (hheader : m.state = .header)
    (hclean : m.report.diagnostics = []) (hlines : m.CountsLines) (place : Nat) :
    ∀ d ∈ (m.loop place).2.report.diagnostics, 2 ≤ d.line ∧
      d.line ≤ (m.loop place).2.report.lines := by
  have hcounted : (m.loop place).2.CountsLines :=
    (invariant_countsLines hcount).loop hlines (Or.inl hheader) place
  have hnone : (m.turn place).2.report.diagnostics = [] := by
    rw [turn_header hheader, diagnostics_headerStep, hclean]
  rw [hcounted]
  rcases hturn : m.turn place with ⟨next | _ | e, m'⟩ <;> rw [hturn] at hnone
  · have hfirst := lineNumber_turn hcount (Or.inl hheader) hturn
    obtain ⟨-, noted, hnoted, -, hbounds⟩ :=
      noted_loop hcount (Or.inr (front_turn (Or.inl hheader) hturn)) next
    rw [loop_of_turn hturn, hnoted, hnone, List.nil_append]
    intro d hd
    obtain ⟨hlow, hhigh⟩ := hbounds d hd
    exact ⟨by omega, hhigh⟩
  · rw [loop_of_last_turn hturn, hnone]
    nofun
  · rw [loop_of_failed_turn hturn, hnone]
    nofun

end Lines

/-! ### All lines of a file -/

section File

variable {σ κ : Type} [RegistryStore σ κ]

/-- The loop of a body takes all lines of a list. -/
theorem left_of_loop {m : Importer ListedLines σ κ} (hfront : m.state = m.front) (place : Nat) :
    (m.loop place).2.lines.left = [] := by
  induction m, place using loop_induct with
  | goesOn m place next m' hturn ih =>
      rw [loop_of_turn hturn]
      exact ih (front_turn (Or.inr hfront) hturn)
  | finished m place m' hturn =>
      obtain ⟨⟨left, given⟩, hnext⟩ := end_of_turn hfront hturn
      rw [loop_of_last_turn hturn]
      cases left with
      | nil => exact congrArg (fun answer => answer.2.left) hnext.symm
      | cons line left => cases hnext
  | failed m place e m' hturn =>
      have hbody : m.state ≠ .header := by
        rw [hfront, front]
        split <;> rintro ⟨⟩
      have hfailed : (m.loop place).1 = .error e := congrArg Prod.fst (loop_of_failed_turn hturn)
      exact absurd ((loop_staysInBody hbody place).2 e hfailed) (not_isReadFailure_listed e)

/-- The lines that have been given and those that are left are all lines. -/
theorem invariant_allLines (total : Nat) : Invariant fun m : Importer ListedLines σ κ =>
    m.lines.given + m.lines.left.length = total := by
  refine invariant_lines (fun lines : ListedLines => lines.given + lines.left.length = total) ?_
  rintro ⟨_ | ⟨line, left⟩, given⟩ h
  · exact h
  · have htotal : given + (left.length + 1) = total := h
    show given + 1 + left.length = total
    omega

/-- Behind a header that can be imported a report counts all lines of a list. -/
theorem lines_of_listed (encoding : FileEncoding) {lines : List Text} (store : σ)
    (h : (Dialect.ofHeader (lines.head?.getD [])).isImportable = true) :
    (ofLines (κ := κ) encoding lines store).run.2.report.lines = lines.length := by
  obtain ⟨m, hm⟩ : ∃ m : Importer ListedLines σ κ, m = ofLines encoding lines store := ⟨_, rfl⟩
  have hheader : m.state = .header := by rw [hm]; rfl
  have hcounted : (m.loop 0).2.CountsLines :=
    (invariant_countsLines ListedLines.counts).loop (by rw [hm]; rfl) (Or.inl hheader) 0
  have hall : (m.loop 0).2.lines.given + (m.loop 0).2.lines.left.length = lines.length :=
    (invariant_allLines lines.length).loop (by rw [hm]; exact Nat.zero_add _) (Or.inl hheader) 0
  have hnext : LineSupply.next m.lines = (.ok lines.head?, (LineSupply.next m.lines).2) :=
    Prod.ext (by rw [hm]; exact (ListedLines.next_first lines).1) rfl
  obtain ⟨m', hturn, hfront⟩ := turn_of_isImportable hheader hnext h
  have hleft : (m.loop 0).2.lines.left = [] := by
    rw [loop_of_turn hturn]
    exact left_of_loop hfront 0
  rw [← hm, report_run]
  calc (m.loop 0).2.report.lines
      = (m.loop 0).2.lines.given := hcounted
    _ = lines.length := by rw [← hall, hleft, List.length_nil, Nat.add_zero]

/-- **So does the report of an import of a file.** -/
theorem lines_of_delivers {source : Source} {bytes : Bytes} (h : source.Delivers bytes) {store : σ}
    {options : ImportOptions} {m : Importer LineReader σ κ}
    (hm : ofSource source store options = .ok m)
    (hheader : (Dialect.ofHeader (firstLine options.page bytes)).isImportable = true) :
    m.run.2.report.lines = (fileLines options.page bytes).length := by
  have hview := congrArg ImportView.report (view_run_of_delivers h (two_le_of_firstLine hheader) hm)
  exact (congrArg ImportReport.lines hview).trans (lines_of_listed _ _ hheader)

end File

end RegistryText.Importer
