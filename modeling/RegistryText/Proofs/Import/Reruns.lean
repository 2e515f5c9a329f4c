import Mathlib.Logic.Relation
import RegistryText.Proofs.Import.Body
import RegistryText.Proofs.Import.Handles

/-!
# The dialect over many runs

An importer may be run again and again, and between two steps it may be looked at.
`Moves` lists what can happen to it: a run begins, a step is made, a run ends.  The
moments between runs that can be reached in this way are those of `runs`
(`reflTransGen_moves_runs`, `exists_runs_of_moves`).

**A dialect that has been read stays what it is** (`dialect_stays`), with one exception.
A run that ends at a header that cannot be imported leaves the importer in front of the
header, and its lines are gone; so the next run reads an empty header instead and calls
the file invalid.  A file that is invalid stays so, but *a file that is unsupported
becomes invalid when it is run once more*.

The dialect is kept twice, by the importer for its own steps and in its report.  Both are
set at the header and nowhere else, so they agree at every moment
(`TellsDialect.reflTransGen`).
-/

namespace RegistryText

namespace Importer

section Moves

variable {ρ σ κ : Type} [LineSupply ρ] [RegistryStore σ κ]

/-- What happens to an importer that is run again and again.  It stands between two runs, or
in a run at a place of its line. -/
inductive Moves : Importer ρ σ κ × Option Nat → Importer ρ σ κ × Option Nat → Prop
  | begins (m : Importer ρ σ κ) : Moves (m, none) (m, some 0)
  | goesOn {m m' : Importer ρ σ κ} {place next : Nat}
      (step : m.step place = (.proceed next, m')) : Moves (m, some place) (m', some next)
  | ends {m m' : Importer ρ σ κ} {place : Nat} (step : m.step place = (.finished, m')) :
      Moves (m, some place) (m'.finish, none)
  | fails {m m' : Importer ρ σ κ} {place : Nat} {e : ImportError}
      (step : m.step place = (.failed e, m')) : Moves (m, some place) (m'.finish, none)

variable {m m' : Importer ρ σ κ}

/-- A loop is made of moves. -/
theorem moves_of_loop (m : Importer ρ σ κ) (place : Nat) :
    Relation.ReflTransGen Moves (m, some place) ((m.loop place).2.finish, none) := by
  induction hremaining : m.remaining using Nat.strongRecOn generalizing m place with
  | ind remaining ih =>
      rcases hstep : m.step place with ⟨progress, m'⟩
      cases progress with
      | proceed next =>
          rw [loop_of_proceed hstep]
          exact .head (.goesOn hstep)
            (ih m'.remaining (hremaining ▸ remaining_step hstep) m' next rfl)
      | finished =>
          rw [loop_of_finished hstep]
          exact .single (.ends hstep)
      | failed e =>
          rw [loop_of_failed hstep]
          exact .single (.fails hstep)

/-- Runs are made of moves. -/
theorem reflTransGen_moves_runs (m : Importer ρ σ κ) (n : Nat) :
    Relation.ReflTransGen Moves (m, none) (m.runs n, none) := by
  induction n with
  | zero => exact .refl
  | succ n ih =>
      rw [runs, run_snd]
      exact (ih.tail (.begins _)).trans (moves_of_loop _ 0)

/-- A moment that moves lead to: between two runs, or in a run that has yet to end. -/
theorem runs_of_moves {s : Importer ρ σ κ × Option Nat}
    (h : Relation.ReflTransGen Moves (m, none) s) :
    (∃ n, s = (m.runs n, none)) ∨
      ∃ m' n place, s = (m', some place) ∧ (m'.loop place).2.finish = m.runs (n + 1) := by
  induction h with
  | refl => exact Or.inl ⟨0, rfl⟩
  | tail before move ih =>
      cases move with
      | begins m' =>
          rcases ih with ⟨n, hs⟩ | ⟨m'', n, place, hs, -⟩ <;> cases hs
          exact Or.inr ⟨_, n, 0, rfl, by rw [runs, run_snd]⟩
      | goesOn step =>
          rcases ih with ⟨n, hs⟩ | ⟨m'', n, place, hs, hloop⟩ <;> cases hs
          exact Or.inr ⟨_, n, _, rfl, by rw [← hloop, loop_of_proceed step]⟩
      | ends step =>
          rcases ih with ⟨n, hs⟩ | ⟨m'', n, place, hs, hloop⟩ <;> cases hs
          exact Or.inl ⟨n + 1, by rw [← hloop, loop_of_finished step]⟩
      | fails step =>
          rcases ih with ⟨n, hs⟩ | ⟨m'', n, place, hs, hloop⟩ <;> cases hs
          exact Or.inl ⟨n + 1, by rw [← hloop, loop_of_failed step]⟩

/-- Between two runs the importer is what some number of runs has left. -/
theorem exists_runs_of_moves (h : Relation.ReflTransGen Moves (m, none) (m', none)) :
    ∃ n, m' = m.runs n := by
  rcases runs_of_moves h with ⟨n, hs⟩ | ⟨m'', n, place, hs, -⟩ <;> cases hs
  exact ⟨n, rfl⟩

/-! ### The dialect in the report -/

/-- The report tells the dialect that the importer keeps. -/
def TellsDialect (m : Importer ρ σ κ) : Prop :=
  m.report.dialect = m.dialect

omit [LineSupply ρ] [RegistryStore σ κ] in
/-- Behind a header line both are the dialect of the line. -/
theorem tellsDialect_classify (m : Importer ρ σ κ) : m.classify.2.TellsDialect := by
  simp only [classify]
  split
  · rfl
  · split <;> rfl

/-- A step decides on both dialects at once, or leaves both. -/
theorem TellsDialect.step (h : m.TellsDialect) (place : Nat) :
    (m.step place).2.TellsDialect := by
  by_cases hstate : m.state = .header
  · have hstep : m.step place = m.headerStep := by rw [Importer.step, hstate]
    rw [hstep, headerStep]
    split
    next e m' hfetch =>
      exact (reported_fetch hfetch).trans (h.trans (kept_of_fetch hfetch).2.2.2.1.symm)
    next m' hfetch => exact m'.tellsDialect_classify
    next m' hfetch => exact tellsDialect_classify { m' with line := [] }
  · have hstays := step_staysInBody hstate place
    exact hstays.reported.trans (h.trans hstays.dialect.symm)

omit [LineSupply ρ] in
/-- The end of a run leaves both. -/
theorem TellsDialect.closeKey (h : m.TellsDialect) : m.closeKey.TellsDialect :=
  (congrArg ImportReport.dialect m.report_closeKey).trans (h.trans m.closeKey_kept.2.symm)

/-- **The report tells the dialect at every moment of every number of runs.** -/
theorem TellsDialect.reflTransGen {s s' : Importer ρ σ κ × Option Nat} (h : s.1.TellsDialect)
    (hmoves : Relation.ReflTransGen Moves s s') : s'.1.TellsDialect := by
  induction hmoves with
  | refl => exact h
  | tail before move ih =>
      cases move with
      | begins m => exact ih
      | @goesOn m m' place next step =>
          have hstep := ih.step place
          rwa [step] at hstep
      | @ends m m' place step | @fails m m' place e step =>
          have hstep := ih.step place
          rw [step] at hstep
          exact hstep.closeKey

end Moves

/-! ### In front of the header again -/

section Reader

variable {σ κ : Type} {m m' : Importer LineReader σ κ}

/-- What the dialect says about where the importer stands: in the body if it can be imported;
otherwise in front of the header, with no lines left. -/
structure Classified (m : Importer LineReader σ κ) : Prop where
  body : m.state ≠ .header → ∃ d, m.dialect = some d ∧ d.isImportable = true
  header : m.state = .header → ∀ d, m.dialect = some d →
    d.isImportable = false ∧ m.lines.source = none

/-- Without lines the header is empty, and the file is invalid. -/
theorem headerStep_of_closed (hclosed : m.lines.source = none) : m.headerStep =
    (.failed (.invalidHeader []), Importer.named { m with line := [] } .invalid) := by
  have hnext : LineSupply.next m.lines = (.ok none, m.lines) := LineReader.next_of_closed hclosed
  have hempty : (Dialect.ofHeader []).isImportable = false := by decide
  have hheader : m.headerStep = Importer.classify { m with line := [] } := by
    simp only [headerStep, fetch, hnext]
  rw [hheader, classify_of_not_isImportable hempty]
  rfl

/-- What a step may leave: an importer of the body, or one that is about to end its run in front
of the header. -/
structure Decided (r : Progress × Importer LineReader σ κ) : Prop where
  body : r.2.state ≠ .header → ∃ d, r.2.dialect = some d ∧ d.isImportable = true
  header : r.2.state = .header →
    (∃ e, r.1 = .failed e) ∧ ∀ d, r.2.dialect = some d → d.isImportable = false

theorem decided_classify (hstate : m.state = .header) : Decided m.classify := by
  rcases himport : (Dialect.ofHeader m.line).isImportable
  · rw [classify_of_not_isImportable himport]
    refine ⟨fun hbody => absurd hstate hbody, fun _ => ⟨⟨_, rfl⟩, ?_⟩⟩
    rintro d ⟨⟩
    exact himport
  · obtain ⟨m', hclassify, hdialect, hbody⟩ := classify_of_isImportable himport
    rw [hclassify]
    exact ⟨fun _ => ⟨_, hdialect, himport⟩, fun hheader => absurd hheader hbody⟩

/-- The step in front of the header. -/
theorem Classified.decided_headerStep (h : m.Classified) (hstate : m.state = .header) :
    Decided m.headerStep := by
  unfold headerStep
  split
  next e m' hfetch =>
    obtain ⟨hkept, -, -, hdialect, -, -⟩ := kept_of_fetch hfetch
    refine ⟨fun hbody => absurd (hkept.trans hstate) hbody, fun _ => ⟨⟨e, rfl⟩, fun d hd => ?_⟩⟩
    exact (h.header hstate d (hdialect ▸ hd)).1
  next m' hfetch => exact decided_classify ((kept_of_fetch hfetch).1.trans hstate)
  next m' hfetch =>
    exact decided_classify (m := { m' with line := [] }) ((kept_of_fetch hfetch).1.trans hstate)

variable [RegistryStore σ κ]

/-- A step decides on the dialect if it is the one in front of the header, and otherwise
leaves the decision as it is. -/
theorem Classified.decided_step (h : m.Classified) (place : Nat) : Decided (m.step place) := by
  by_cases hstate : m.state = .header
  · have hstep : m.step place = m.headerStep := by rw [step, hstate]
    rw [hstep]
    exact h.decided_headerStep hstate
  · have hstays := step_staysInBody hstate place
    refine ⟨fun _ => ?_, fun hheader => absurd hheader hstays.state⟩
    obtain ⟨d, hdialect, himport⟩ := h.body hstate
    exact ⟨d, hstays.dialect.trans hdialect, himport⟩

/-- A dialect that has been read stays, or an empty header is read in its place. -/
theorem Classified.dialect_step (h : m.Classified) (place : Nat) {d : Dialect}
    (hd : m.dialect = some d) : (m.step place).2.dialect = some d ∨
      d.isImportable = false ∧ (m.step place).2.dialect = some .invalid := by
  by_cases hstate : m.state = .header
  · obtain ⟨hrejected, hclosed⟩ := h.header hstate d hd
    have hstep : m.step place = m.headerStep := by rw [step, hstate]
    rw [hstep, headerStep_of_closed hclosed]
    exact Or.inr ⟨hrejected, rfl⟩
  · exact Or.inl ((step_staysInBody hstate place).dialect.trans hd)

/-- The end of a run lets go of the lines. -/
theorem Decided.finish {r : Progress × Importer LineReader σ κ} (h : Decided r) :
    r.2.finish.Classified := by
  obtain ⟨hstate, hdialect⟩ := r.2.finish_kept
  refine ⟨?_, ?_⟩
  · rw [hstate, hdialect]
    exact h.body
  · rw [hstate, hdialect]
    exact fun hheader d hd => ⟨(h.header hheader).2 d hd, rfl⟩

theorem Classified.moves {s s' : Importer LineReader σ κ × Option Nat} (h : s.1.Classified)
    (hmove : Moves s s') : s'.1.Classified := by
  cases hmove with
  | begins m => exact h
  | @goesOn m m' place next step =>
      obtain ⟨hbody, hheader⟩ := h.decided_step place
      rw [step] at hbody hheader
      refine ⟨hbody, fun hstate => ?_⟩
      obtain ⟨⟨e, he⟩, -⟩ := hheader hstate
      cases he
  | @ends m m' place step =>
      have hdecided := (h.decided_step place).finish
      rwa [step] at hdecided
  | @fails m m' place e step =>
      have hdecided := (h.decided_step place).finish
      rwa [step] at hdecided

/-- One move leaves a dialect as it is, or puts the invalid one in the place of one that cannot
be imported. -/
theorem Classified.dialect_moves {s s' : Importer LineReader σ κ × Option Nat}
    (h : s.1.Classified) (hmove : Moves s s') {d : Dialect} (hd : s.1.dialect = some d) :
    s'.1.dialect = some d ∨ d.isImportable = false ∧ s'.1.dialect = some .invalid := by
  cases hmove with
  | begins m => exact Or.inl hd
  | @goesOn m m' place next step => simpa only [step] using h.dialect_step place hd
  | @ends m m' place step | @fails m m' place e step =>
      rw [m'.finish_kept.2]
      simpa only [step] using h.dialect_step place hd

/-- So does any number of moves. -/
theorem Classified.dialect_reflTransGen {s s' : Importer LineReader σ κ × Option Nat}
    (h : s.1.Classified) (hmoves : Relation.ReflTransGen Moves s s') {d : Dialect}
    (hd : s.1.dialect = some d) : s'.1.Classified ∧
      (s'.1.dialect = some d ∨ d.isImportable = false ∧ s'.1.dialect = some .invalid) := by
  induction hmoves with
  | refl => exact ⟨h, Or.inl hd⟩
  | tail before move ih =>
      obtain ⟨hclassified, hsame | ⟨hrejected, hinvalid⟩⟩ := ih
      · exact ⟨hclassified.moves move, hclassified.dialect_moves move hsame⟩
      · refine ⟨hclassified.moves move, Or.inr ⟨hrejected, ?_⟩⟩
        rcases hclassified.dialect_moves move hinvalid with hstill | ⟨-, hagain⟩
        · exact hstill
        · exact hagain

theorem Classified.reflTransGen {s s' : Importer LineReader σ κ × Option Nat}
    (h : s.1.Classified) (hmoves : Relation.ReflTransGen Moves s s') : s'.1.Classified := by
  induction hmoves with
  | refl => exact h
  | tail before move ih => exact ih.moves move

omit [RegistryStore σ κ] in
/-- A new importer has read no header. -/
theorem classified_ofSource {source : Source} {store : σ} {options : ImportOptions}
    (hm : ofSource source store options = .ok m) : m.Classified := by
  obtain ⟨first, second, rest, rfl⟩ := exists_ofFirstBytes hm
  exact ⟨fun hbody => absurd rfl hbody, fun _ d hd => nomatch hd⟩

omit [RegistryStore σ κ] in
/-- A new importer keeps no dialect, and tells none. -/
theorem tellsDialect_ofSource {source : Source} {store : σ} {options : ImportOptions}
    (hm : ofSource source store options = .ok m) : m.TellsDialect := by
  obtain ⟨first, second, rest, rfl⟩ := exists_ofFirstBytes hm
  rfl

/-- A run that begins with a dialect that cannot be imported ends with the invalid one. -/
theorem Classified.dialect_run (h : m.Classified) {d : Dialect} (hd : m.dialect = some d)
    (hrejected : d.isImportable = false) : m.run.2.dialect = some .invalid := by
  have hstate : m.state = .header := by
    refine Classical.byContradiction fun hbody => ?_
    obtain ⟨d', hd', himport⟩ := h.body hbody
    rw [hd] at hd'
    cases hd'
    rw [hrejected] at himport
    cases himport
  have hstep : m.step 0 = m.headerStep := by rw [step, hstate]
  rw [headerStep_of_closed (h.header hstate d hd).2] at hstep
  rw [run_snd, loop_of_failed hstep, (finish_kept _).2]
  rfl

end Reader

end Importer

/-- **A dialect that has been read stays what it is**, at every later moment of every number of
runs, unless it is the unsupported one: a file that is unsupported at the end of a run is invalid
at the end of all later ones.  The moments between two runs are those of `runs`, and at every
moment the report tells the dialect that the importer keeps. -/
theorem dialect_stays {σ κ : Type} [RegistryStore σ κ] {source : Source} {store : σ}
    {options : ImportOptions} {m₀ : Importer LineReader σ κ}
    (hm₀ : Importer.ofSource source store options = .ok m₀) :
    (∀ (s s' : Importer LineReader σ κ × Option Nat) (d : Dialect),
      Relation.ReflTransGen Importer.Moves (m₀, none) s →
      Relation.ReflTransGen Importer.Moves s s' → s.1.dialect = some d → d ≠ .unsupported →
      s'.1.dialect = some d) ∧
    (∀ n k, (m₀.runs n).dialect = some .unsupported →
      (m₀.runs (n + 1 + k)).dialect = some .invalid) ∧
    (∀ m, (∃ n, m = m₀.runs n) ↔
      Relation.ReflTransGen Importer.Moves (m₀, none) (m, none)) ∧
    ∀ s, Relation.ReflTransGen Importer.Moves (m₀, none) s → s.1.report.dialect = s.1.dialect := by
  have hfresh := Importer.classified_ofSource hm₀
  have hstays : ∀ (s s' : Importer LineReader σ κ × Option Nat) (d : Dialect),
      Relation.ReflTransGen Importer.Moves (m₀, none) s →
      Relation.ReflTransGen Importer.Moves s s' → s.1.dialect = some d → d ≠ .unsupported →
      s'.1.dialect = some d := by
    intro s s' d hbefore hmoves hd hne
    obtain ⟨-, hsame | ⟨hrejected, hinvalid⟩⟩ :=
      (hfresh.reflTransGen hbefore).dialect_reflTransGen hmoves hd
    · exact hsame
    · have hd' : d = .invalid := by
        cases d <;> first | rfl | exact absurd rfl hne | cases hrejected
      rw [hinvalid, hd']
  refine ⟨hstays, ?_, fun m => ⟨?_, Importer.exists_runs_of_moves⟩, fun s hmoves =>
    (Importer.tellsDialect_ofSource hm₀).reflTransGen hmoves⟩
  · intro n k hunsupported
    have hclassified := hfresh.reflTransGen (m₀.reflTransGen_moves_runs n)
    have hnext : (m₀.runs (n + 1)).dialect = some .invalid :=
      hclassified.dialect_run hunsupported rfl
    induction k with
    | zero => exact hnext
    | succ k ih =>
        have hlater := hfresh.reflTransGen (m₀.reflTransGen_moves_runs (n + 1 + k))
        exact hlater.dialect_run ih rfl
  · rintro ⟨n, rfl⟩
    exact m₀.reflTransGen_moves_runs n

/-- The file whose header only begins like a known one. -/
def unsupportedSource : Source :=
  .ofBytes (Utf8.encode "REGEDIT9\n".toList)

/-- A new importer of this file. -/
def importerOfUnsupported : Importer LineReader MemoryStore KeyHandle :=
  Importer.ofFirstBytes 0x52 0x45 (.ofBytes ((Utf8.encode "REGEDIT9\n".toList).drop 2)) {} {}

/-- A source that fails while a list of bytes is continued. -/
def failingSource : Source where
  segments := [.data (Utf8.encode "REGEDIT4\n[HKCU\\A]\n@=hex:01,\\\n".toList),
    .failure "broken".toList, .data (Utf8.encode "02\n".toList)]
  chunk := none

/-- A new importer of this source. -/
def importerOfFailing : Importer LineReader MemoryStore KeyHandle :=
  Importer.ofFirstBytes 0x52 0x45
    { failingSource with
      segments := [.data ((Utf8.encode "REGEDIT4\n[HKCU\\A]\n@=hex:01,\\\n".toList).drop 2),
        .failure "broken".toList, .data (Utf8.encode "02\n".toList)] } {} {}

/-- The dialect that was read in front of a failure stays in later runs; the unsupported one is
lost in the second run. -/
theorem dialect_stays_of_failure :
    Importer.ofSource failingSource {} {} = .ok importerOfFailing ∧
      (importerOfFailing.runs 1).dialect = some .version4 ∧
      (importerOfFailing.runs 3).dialect = some .version4 ∧
      Importer.ofSource unsupportedSource {} {} = .ok importerOfUnsupported ∧
      ∀ k, (importerOfUnsupported.runs (2 + k)).dialect = some .invalid := by
  have hfailing : Importer.ofSource failingSource {} {} = .ok importerOfFailing := rfl
  have hunsupported : Importer.ofSource unsupportedSource {} {} = .ok importerOfUnsupported := rfl
  have hfirst : (importerOfFailing.runs 1).dialect = some .version4 := by decide +kernel
  have hlater := (importerOfFailing.runs 1).reflTransGen_moves_runs 2
  refine ⟨hfailing, hfirst, ?_, hunsupported, fun k => ?_⟩
  · exact (dialect_stays hfailing).1 (importerOfFailing.runs 1, none)
      (importerOfFailing.runs 3, none) .version4 (importerOfFailing.reflTransGen_moves_runs 1)
      hlater hfirst (by decide)
  · exact (dialect_stays hunsupported).2.1 1 k (by decide +kernel)

/-- The dialect of the unsupported file is decided twice: the second run finds no header and
calls the file invalid. -/
theorem dialect_changes_of_unsupported :
    Importer.ofSource unsupportedSource {} {} = .ok importerOfUnsupported ∧
      (importerOfUnsupported.runs 1).dialect = some .unsupported ∧
      (importerOfUnsupported.runs 2).dialect = some .invalid ∧
      (importerOfUnsupported.runs 2).report.dialect = some .invalid :=
  ⟨rfl, by decide +kernel, by decide +kernel, by decide +kernel⟩

end RegistryText
