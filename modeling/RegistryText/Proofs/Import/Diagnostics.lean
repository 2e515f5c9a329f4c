import RegistryText.Proofs.Import.Obey
import RegistryText.Proofs.Lines.Listed

/-!
# The order of diagnostics

An import notes a problem under the number of the line that it took last, and
takes nothing back.  So **the diagnostics of a run stand in the order of their
lines** (`pairwise_run`), and what a turn notes carries the numbers of the lines
that the turn has taken (`noted_turn`).

This holds of every supply that numbers its lines one by one.
-/

namespace RegistryText

/-- A supply that numbers the lines that it gives one by one. -/
structure LineSupply.Counts (ρ : Type) [LineSupply ρ] : Prop where
  lineNumber_line : ∀ {supply rest : ρ} {line : Text},
    LineSupply.next supply = (.ok (some line), rest) →
      LineSupply.lineNumber rest = LineSupply.lineNumber supply + 1
  lineNumber_none : ∀ {supply rest : ρ}, LineSupply.next supply = (.ok none, rest) →
    LineSupply.lineNumber rest = LineSupply.lineNumber supply
  lineNumber_error : ∀ {supply rest : ρ} {message : Text},
    LineSupply.next supply = (.error message, rest) →
      LineSupply.lineNumber rest = LineSupply.lineNumber supply

/-- The number of lines in an answer. -/
def LineSupply.countOf : Except Text (Option Text) → Nat
  | .ok (some _) => 1
  | .ok none => 0
  | .error _ => 0

/-- A line that a list of lines gives has the next number. -/
theorem ListedLines.counts : LineSupply.Counts ListedLines where
  lineNumber_line := by
    rintro ⟨_ | ⟨line, left⟩, given⟩ rest line' h <;> cases h
    rfl
  lineNumber_none := by
    rintro ⟨_ | ⟨line, left⟩, given⟩ rest h <;> cases h
    rfl
  lineNumber_error := by
    rintro ⟨_ | ⟨line, left⟩, given⟩ rest message h <;> cases h

/-- A read of the source gives no line. -/
theorem LineReader.lineNumber_fill {r r' : LineReader} {source : Source} {result : Option Text}
    (h : r.fill source = (result, r')) : r'.lineNumber = r.lineNumber := by
  rw [fill] at h
  rcases hread : source.read r.makeRoom.request with ⟨given, rest⟩
  rw [hread] at h
  cases given <;> cases h <;> rfl

/-- So has one that a reader finds. -/
theorem LineReader.counts : LineSupply.Counts LineReader := by
  have hcount : ∀ (r : LineReader) {answer r'}, r.next = (answer, r') →
      r'.lineNumber = r.lineNumber + LineSupply.countOf answer := by
    intro r
    fun_induction next r with
    | case1 r hsource | case3 r source hsource hend hover hempty =>
        intro answer r' h
        cases h
        rfl
    | case2 r source hsource e hend | case4 r source hsource hend hover hempty =>
        intro answer r' h
        cases h
        rfl
    | case5 r source hsource hend hopen message r'' hfill =>
        intro answer r' h
        cases h
        exact lineNumber_fill hfill
    | case6 r source hsource hend hopen r'' hfill hless ih =>
        intro answer r' h
        rw [ih h, lineNumber_fill hfill]
  exact ⟨fun h => hcount _ h, fun h => hcount _ h, fun h => hcount _ h⟩

namespace Importer

variable {ρ σ κ : Type} [LineSupply ρ]

/-- What has been noted since carries numbers of lines from `low` on, in order. -/
structure Onward (low : Nat) (m m' : Importer ρ σ κ) : Prop where
  lineNumber_le : LineSupply.lineNumber m.lines ≤ LineSupply.lineNumber m'.lines
  noted : ∃ new, m'.report.diagnostics = m.report.diagnostics ++ new ∧
    new.Pairwise (fun d d' => d.line ≤ d'.line) ∧
    ∀ d ∈ new, low ≤ d.line ∧ d.line ≤ LineSupply.lineNumber m'.lines

namespace Onward

variable {low : Nat} {m m' m'' : Importer ρ σ κ}

/-- Nothing has been noted since. -/
theorem of_eq (hlines : LineSupply.lineNumber m.lines ≤ LineSupply.lineNumber m'.lines)
    (hdiagnostics : m'.report.diagnostics = m.report.diagnostics) : Onward low m m' :=
  ⟨hlines, [], by simp [hdiagnostics], .nil, by simp⟩

/-- Who does nothing goes nowhere back. -/
theorem refl (low : Nat) (m : Importer ρ σ κ) : Onward low m m :=
  of_eq (Nat.le_refl _) rfl

/-- A lower bound of the new line numbers may be lowered. -/
theorem weaken {low' : Nat} (h : Onward low m m') (hle : low' ≤ low) : Onward low' m m' := by
  obtain ⟨hlines, new, hnew, hsorted, hbounds⟩ := h
  exact ⟨hlines, new, hnew, hsorted, fun d hd => ⟨Nat.le_trans hle (hbounds d hd).1,
    (hbounds d hd).2⟩⟩

/-- Only the lines and the diagnostics count. -/
theorem congr {n n' : Importer ρ σ κ} (h : Onward low m m') (hlines : n.lines = m.lines)
    (hreport : n.report.diagnostics = m.report.diagnostics) (hlines' : n'.lines = m'.lines)
    (hreport' : n'.report.diagnostics = m'.report.diagnostics) : Onward low n n' := by
  obtain ⟨hle, new, hnew, hsorted, hbounds⟩ := h
  refine ⟨by rwa [hlines, hlines'], new, by rw [hreport', hreport, hnew], hsorted, ?_⟩
  rwa [hlines']

/-- What is noted later carries later numbers. -/
theorem trans (h : Onward low m m') (hlow : low ≤ LineSupply.lineNumber m'.lines)
    (h' : Onward (LineSupply.lineNumber m'.lines) m' m'') : Onward low m m'' := by
  obtain ⟨hlines, new, hnew, hsorted, hbounds⟩ := h
  obtain ⟨hlines', more, hmore, hsorted', hbounds'⟩ := h'
  refine ⟨Nat.le_trans hlines hlines', new ++ more, ?_, ?_, ?_⟩
  · rw [hmore, hnew, List.append_assoc]
  · refine List.pairwise_append.mpr ⟨hsorted, hsorted', ?_⟩
    intro d hd d' hd'
    exact Nat.le_trans (hbounds d hd).2 (hbounds' d' hd').1
  · intro d hd
    rcases List.mem_append.mp hd with hd | hd
    · exact ⟨(hbounds d hd).1, Nat.le_trans (hbounds d hd).2 hlines'⟩
    · exact ⟨Nat.le_trans hlow (hbounds' d hd).1, (hbounds' d hd).2⟩

/-- A problem carries the number of the last line. -/
theorem note (m : Importer ρ σ κ) (kinds : List DiagnosticKind) :
    Onward (LineSupply.lineNumber m.lines) m (m.note kinds) := by
  refine ⟨Nat.le_refl _, _, rfl, ?_, ?_⟩
  · rw [List.pairwise_map]
    exact List.pairwise_of_forall (fun _ _ => Nat.le_refl _)
  · intro d hd
    obtain ⟨kind, -, rfl⟩ := List.mem_map.mp hd
    exact ⟨Nat.le_refl _, Nat.le_refl _⟩

section Store

variable [RegistryStore σ κ]

/-- A refused key is noted at the current line. -/
theorem openKey (m : Importer ρ σ κ) (path : Text) :
    Onward (LineSupply.lineNumber m.lines) m (m.openKey path).2 := by
  have hdiagnostics : m.closeKey.report.diagnostics = m.report.diagnostics :=
    congrArg ImportReport.diagnostics m.report_closeKey
  have hlines : LineSupply.lineNumber m.closeKey.lines = LineSupply.lineNumber m.lines := by
    rw [lines_closeKey]
  have hclosed : ∀ store : σ,
      Onward (LineSupply.lineNumber m.lines) m { m.closeKey with store := store } :=
    fun store => of_eq (Nat.le_of_eq hlines.symm) hdiagnostics
  simp only [Importer.openKey]
  rcases requestKey (κ := κ) m.closeKey.store path with ⟨answer, store⟩
  cases answer with
  | ok key => exact of_eq (Nat.le_of_eq hlines.symm) hdiagnostics
  | error cause =>
      refine (hclosed store).trans (Nat.le_of_eq hlines.symm) ?_
      exact note { m.closeKey with store := store } _

/-- So is a refused write. -/
theorem write (m : Importer ρ σ κ) (w : KeyWrite) :
    Onward (LineSupply.lineNumber m.lines) m (m.write w) := by
  unfold Importer.write
  split
  · exact refl _ m
  · split
    · exact of_eq (Nat.le_refl _) rfl
    · next store _ =>
      have hset : Onward (LineSupply.lineNumber m.lines) m { m with store := store } :=
        of_eq (Nat.le_refl _) rfl
      exact hset.trans (Nat.le_refl _) (note _ _)

end Store

variable (hcount : LineSupply.Counts ρ)
include hcount

/-- A line that is taken counts. -/
theorem lineNumber_fetch (hfetch : m.fetch = (.ok true, m')) :
    LineSupply.lineNumber m'.lines = LineSupply.lineNumber m.lines + 1 ∧
      m'.report.diagnostics = m.report.diagnostics := by
  rcases hnext : LineSupply.next m.lines with ⟨answer, rest⟩
  rcases answer with message | _ | line <;> simp only [fetch, hnext] at hfetch <;> cases hfetch
  exact ⟨hcount.lineNumber_line hnext, rfl⟩

/-- A fetch notes nothing, and no line number gets smaller by it. -/
theorem fetch {answer : Except ImportError Bool} (hfetch : m.fetch = (answer, m')) :
    Onward low m m' := by
  rcases hnext : LineSupply.next m.lines with ⟨given, rest⟩
  rcases given with message | _ | line <;> simp only [Importer.fetch, hnext] at hfetch <;>
    cases hfetch
  · exact of_eq (Nat.le_of_eq (hcount.lineNumber_error hnext).symm) rfl
  · exact of_eq (Nat.le_of_eq (hcount.lineNumber_none hnext).symm) rfl
  · exact of_eq (by rw [hcount.lineNumber_line hnext]; exact Nat.le_succ _) rfl

/-- Nor does gathering a list note anything. -/
theorem gather (m : Importer ρ σ κ) (bytes : Bytes) :
    Onward (LineSupply.lineNumber m.lines) m (m.gather bytes).2 := by
  fun_induction Importer.gather m bytes with
  | case1 m bytes e m' hfetch | case2 m bytes m' hfetch
  | case4 m bytes m' hfetch | case5 m bytes m' hfetch => exact fetch hcount hfetch
  | case3 m bytes m' hfetch hless hcomment ih
  | case6 m bytes m' hfetch hless hlist more hread ih =>
      have htaken : Onward (LineSupply.lineNumber m.lines) m m' := fetch hcount hfetch
      exact htaken.trans htaken.lineNumber_le ih

variable [RegistryStore σ κ]

/-- What is stated is done in order. -/
theorem carryOut (m : Importer ρ σ κ) (statement : Statement) :
    Onward (LineSupply.lineNumber m.lines) m (m.carryOut statement).2 := by
  cases statement with
  | nothing => exact refl _ m
  | key path => exact openKey m path
  | value w => exact write m w
  | fault kind => exact note m [kind]
  | entry path w =>
      have hopened := openKey m path
      exact hopened.trans hopened.lineNumber_le (write _ w)
  | list name type bytes =>
      have hgathered := gather hcount m bytes
      simp only [Importer.carryOut]
      revert hgathered
      rcases m.gather bytes with ⟨ending, m'⟩
      intro hgathered
      cases ending with
      | complete bytes => exact hgathered.trans hgathered.lineNumber_le (write m' _)
      | malformed | missing => exact hgathered.trans hgathered.lineNumber_le (note m' _)
      | failed e => exact hgathered.trans hgathered.lineNumber_le (of_eq (Nat.le_refl _) rfl)

/-- **What obeying a line notes lies between it and the last line that it takes.** -/
theorem obey (m : Importer ρ σ κ) (r : Reading) :
    Onward (LineSupply.lineNumber m.lines) m (m.obey r).2 :=
  (note m _).trans (Nat.le_refl _) (carryOut hcount _ _)

end Onward

variable [RegistryStore σ κ] {m m' : Importer ρ σ κ} {place : Nat}

/-- **A turn notes problems of the lines that it takes.** -/
theorem noted_turn (hcount : LineSupply.Counts ρ) (hm : m.Between) (place : Nat) :
    Onward (LineSupply.lineNumber m.lines + 1) m (m.turn place).2 := by
  rcases hm with hheader | hfront
  · have hclassify : ∀ n : Importer ρ σ κ, n.classify.2.lines = n.lines ∧
        n.classify.2.report.diagnostics = n.report.diagnostics := fun n =>
      ⟨lines_of_outside n.outside_classify, n.diagnostics_classify⟩
    rw [turn_header hheader, headerStep]
    split
    next e m' hfetch => exact Onward.fetch hcount hfetch
    next m' hfetch =>
      exact (Onward.fetch hcount hfetch).congr rfl rfl (hclassify m').1 (hclassify m').2
    next m' hfetch =>
      exact (Onward.fetch hcount hfetch).congr rfl rfl (hclassify { m' with line := [] }).1
        (hclassify { m' with line := [] }).2
  rcases hfetch : m.fetch with ⟨e | _ | _, m'⟩
  · rw [turn_of_error hfront hfetch]
    exact Onward.fetch hcount hfetch
  · rw [turn_of_end hfront hfetch]
    exact Onward.fetch hcount hfetch
  · obtain ⟨-, hlines, -, -, -, -, hreport⟩ :=
      settled_eq_iff.mp (turn_of_line hfront hfetch place)
    have hnumber := (Onward.lineNumber_fetch hcount hfetch).1
    have htaken : Onward (LineSupply.lineNumber m.lines + 1) m m' := Onward.fetch hcount hfetch
    have hobeyed := Onward.obey hcount (m'.anew m.front) (.ofBody m.front m'.line)
    exact htaken.trans (Nat.le_of_eq hnumber.symm)
      (hobeyed.congr rfl rfl hlines (congrArg ImportReport.diagnostics hreport))

/-- A turn that does not end the loop takes a line. -/
theorem lineNumber_turn (hcount : LineSupply.Counts ρ) (hm : m.Between) {next : Nat}
    (hturn : m.turn place = (.proceed next, m')) :
    LineSupply.lineNumber m.lines < LineSupply.lineNumber m'.lines := by
  rcases hm with hheader | hfront
  · rw [turn_header hheader, headerStep] at hturn
    split at hturn
    · cases hturn
    next m'' hfetch =>
      rw [lines_classify hturn, (Onward.lineNumber_fetch hcount hfetch).1]
      exact Nat.lt_succ_self _
    · exact absurd hturn (classify_ne_proceed rfl)
  rcases hfetch : m.fetch with ⟨e | _ | _, m''⟩
  · rw [turn_of_error hfront hfetch] at hturn
    cases hturn
  · rw [turn_of_end hfront hfetch] at hturn
    cases hturn
  · obtain ⟨-, hlines, -⟩ := settled_eq_iff.mp (turn_of_line hfront hfetch place)
    rw [hturn] at hlines
    have hobeyed := Onward.obey hcount (m''.anew m.front) (.ofBody m.front m''.line)
    calc LineSupply.lineNumber m.lines
        < LineSupply.lineNumber m''.lines := by
          rw [(Onward.lineNumber_fetch hcount hfetch).1]
          exact Nat.lt_succ_self _
      _ ≤ LineSupply.lineNumber m'.lines := by
          rw [hlines]
          exact hobeyed.lineNumber_le

/-- What a loop notes carries the numbers of the lines that it takes. -/
theorem noted_loop (hcount : LineSupply.Counts ρ) (hm : m.Between) (place : Nat) :
    Onward (LineSupply.lineNumber m.lines + 1) m (m.loop place).2 := by
  induction m, place using loop_induct with
  | goesOn m place next m' hturn ih =>
      have hturned := noted_turn hcount hm place
      rw [hturn] at hturned
      rw [loop_of_turn hturn]
      exact hturned.trans (lineNumber_turn hcount hm hturn)
        ((ih (Or.inr (front_turn hm hturn))).weaken (Nat.le_succ _))
  | finished m place m' hturn =>
      rw [loop_of_last_turn hturn]
      simpa [hturn] using noted_turn hcount hm place
  | failed m place e m' hturn =>
      rw [loop_of_failed_turn hturn]
      simpa [hturn] using noted_turn hcount hm place

/-- At every moment that a loop visits, what has been noted carries numbers of lines that have
been taken. -/
theorem line_le_of_visits (hcount : LineSupply.Counts ρ) (hm : m.Between)
    (hfirst : ∀ d ∈ m.report.diagnostics, d.line ≤ LineSupply.lineNumber m.lines) {place' : Nat}
    (hvisits : m.Visits place m' place') :
    ∀ d ∈ m'.report.diagnostics, d.line ≤ LineSupply.lineNumber m'.lines := by
  induction hvisits with
  | here m place => exact hfirst
  | @turn m m' m'' place next place' hturn rest ih =>
      refine ih (Or.inr (front_turn hm hturn)) ?_
      obtain ⟨hle, new, hnew, -, hbounds⟩ := noted_turn hcount hm place
      rw [hturn] at hle hnew hbounds
      intro d hd
      rw [hnew] at hd
      rcases List.mem_append.mp hd with hold | hnoted
      · exact Nat.le_trans (hfirst d hold) hle
      · exact (hbounds d hnoted).2

/-- A run reports what its loop reports. -/
theorem report_run (m : Importer ρ σ κ) : m.run.2.report = (m.loop 0).2.report := by
  simp only [run]
  split <;> exact report_closeKey _

/-- **The diagnostics of a run stand in the order of their lines.** -/
theorem pairwise_run (hcount : LineSupply.Counts ρ) (hm : m.Between)
    (hclean : m.report.diagnostics = []) :
    m.run.2.report.diagnostics.Pairwise fun d d' => d.line ≤ d'.line := by
  obtain ⟨-, new, hnew, hsorted, -⟩ := noted_loop hcount hm 0
  rw [report_run, hnew, hclean]
  exact hsorted

/-- A loop that ends without a problem has no turn with one. -/
theorem clean_turn (hcount : LineSupply.Counts ρ) (hm : m.Between)
    (hclean : (m.loop place).2.report.diagnostics = []) :
    (m.turn place).2.report.diagnostics = [] := by
  rcases hturn : m.turn place with ⟨next | _ | e, m'⟩
  · obtain ⟨-, new, hnew, -⟩ := noted_loop hcount (Or.inr (front_turn hm hturn)) next
    rw [loop_of_turn hturn, hnew] at hclean
    exact (List.append_eq_nil_iff.mp hclean).1
  · rwa [loop_of_last_turn hturn] at hclean
  · rwa [loop_of_failed_turn hturn] at hclean

end Importer

end RegistryText
