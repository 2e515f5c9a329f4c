import RegistryText.Proofs.Import.Beside
import RegistryText.Proofs.Import.ByteDependence
import RegistryText.Proofs.Import.Handles
import RegistryText.Proofs.Import.ValueLine
import RegistryText.Proofs.Lines.Broken

/-!
# Imports that meet a failing read

When a read fails the lines in front of it have been carried out, and the line that was
being read has not.  Only a list of bytes takes several lines; if it is not finished when
the read fails, none of its lines has been carried out, though the unknown escapes in the
name of its value have been noted.

**What the import has done is what an import of the lines in front does, and the beginning
of what an import of any longer file does** (`loop_of_failsBehind`).  Both are compared with
the failing import turn by turn; the turn that fails does nothing (`turn_of_failsBehind`),
and it is the last one of an import of the same lines that meets their end there
(`turn_of_cutOff`).
-/

namespace RegistryText

/-- An error of the header is no error of a read. -/
theorem ImportError.ofHeader_ne_io (d : Dialect) (line message : Text) :
    ofHeader d line ≠ .io message := by
  cases d <;> simp [ofHeader]

/-- Lines that begin a value and do not finish it: one more line would. -/
def Unfinished (line : Text) (more : List Text) : Prop :=
  ∃ next w, ValueLine line (more ++ [next]) w

/-- The last lines in front of a failing read that are not carried out, and the unknown
escapes in them that are noted: no lines, or those of a value that is not finished, and the
escapes in its name. -/
inductive CutOff : List Text → List Char → Prop
  | nothing : CutOff [] []
  | value {line : Text} {more : List Text} (h : Unfinished line more) :
      CutOff (line :: more) (Reading.ofLine line).unknown

/-- A supply that fails gives the same lines as a list that goes on. -/
def LineSupply.Foresees {ρ : Type} [LineSupply ρ] (G : ρ → List Text → Prop) (behind : List Text)
    (lines : ρ) (listed : ListedLines) : Prop :=
  ∃ left, G lines left ∧ listed = ⟨left ++ behind, LineSupply.lineNumber lines⟩

/-- The two give the same lines until the one fails. -/
theorem LineSupply.FailsBehind.shifted {ρ : Type} [LineSupply ρ] {message : Text}
    {Open : ρ → Prop} {G : ρ → List Text → Prop} (hG : LineSupply.FailsBehind message Open G)
    (behind : List Text) : LineSupply.Shifted Open 0 (LineSupply.Foresees G behind) where
  lineNumber := by
    rintro lines _ ⟨left, -, rfl⟩
    rfl
  back := hG.back
  next := by
    rintro lines _ ⟨left, hleft, rfl⟩ hopen
    cases left with
    | nil =>
        obtain ⟨rest, hnext, hclosed⟩ := hG.failure hleft
        rw [hnext] at hopen
        exact absurd hopen hclosed
    | cons line left =>
        obtain ⟨rest, hnext, hrest, hnumber⟩ := hG.line hleft
        rw [hnext]
        exact ⟨rfl, left, hrest, by rw [hnumber]; rfl⟩

/-- A list of which some lines have been given. -/
def ListedLines.TakenFrom (all : List Text) (lines : ListedLines) : Prop :=
  ∃ done, all = done ++ lines.left ∧ lines.given = done.length

/-- The next line is given as well. -/
theorem ListedLines.TakenFrom.next {all : List Text} {lines : ListedLines}
    (h : lines.TakenFrom all) : (LineSupply.next lines).2.TakenFrom all := by
  obtain ⟨_ | ⟨line, left⟩, given⟩ := lines
  · exact h
  · obtain ⟨done, rfl, rfl⟩ := h
    exact ⟨done ++ [line], by simp [LineSupply.next, ListedLines.next],
      by simp [LineSupply.next, ListedLines.next]⟩

namespace Importer

variable {ρ σ κ : Type}

/-- How a turn leaves an importer when a read fails behind the lines `left`.  Lines are only left
of a value of a structured file. -/
structure BrokenOff [LineSupply ρ] (left : List Text) (m m' : Importer ρ σ κ) : Prop where
  state : left ≠ [] → m.state = .lineStart
  store : m'.store = m.store
  key : m'.key = m.key
  noted : ∃ unknown, CutOff left unknown ∧ m'.report.diagnostics = m.report.diagnostics ++
    unknown.map fun c => ⟨LineSupply.lineNumber m.lines + 1, .unknownEscape c⟩

variable [LineSupply ρ] {message : Text} {Open : ρ → Prop} {G : ρ → List Text → Prop}
  {m m' : Importer ρ σ κ} {left : List Text} {place : Nat}

/-! ### The turn that fails -/

/-- A line is taken, or the read fails. -/
theorem fetch_of_failsBehind (hG : LineSupply.FailsBehind message Open G) (h : G m.lines left) :
    (left = [] ∧ ∃ m', m.fetch = (.error (.io message), m')) ∨
      ∃ line rest m', left = line :: rest ∧ m.fetch = (.ok true, m') ∧ m'.line = line ∧
        G m'.lines rest ∧
        LineSupply.lineNumber m'.lines = LineSupply.lineNumber m.lines + 1 := by
  cases left with
  | nil =>
      obtain ⟨rest, hnext, -⟩ := hG.failure h
      exact Or.inl ⟨rfl, _, by rw [fetch, hnext]⟩
  | cons line left =>
      obtain ⟨rest, hnext, hrest, hnumber⟩ := hG.line h
      exact Or.inr ⟨line, left, _, rfl, by rw [fetch, hnext], rfl, hrest, hnumber⟩

/-- A list of bytes ends, or all lines that are left continue it and one more would end it. -/
theorem gather_of_failsBehind (hG : LineSupply.FailsBehind message Open G) (h : G m.lines left)
    (bytes : Bytes) :
    (∃ rest, G (m.gather bytes).2.lines rest ∧
        ((m.gather bytes).1 = .malformed ∨ ∃ all, (m.gather bytes).1 = .complete all)) ∨
      (m.gather bytes).1 = .failed (.io message) ∧
        ∃ next more, HexList.Continued (left ++ [next]) more := by
  fun_induction gather m bytes generalizing left with
  | case1 m bytes e m' hfetch =>
      rcases fetch_of_failsBehind hG h with ⟨rfl, n, hn⟩ | ⟨line, rest, n, -, hn, -⟩ <;>
        rw [hfetch] at hn <;> cases hn
      have hempty : HexList.readLine [] = (some .complete, []) := by decide +kernel
      exact Or.inr ⟨rfl, [], [], .last (by decide) (HexList.readLine_eq_some_iff.mp hempty)⟩
  | case2 m bytes m' hfetch =>
      rcases fetch_of_failsBehind hG h with ⟨-, n, hn⟩ | ⟨line, rest, n, -, hn, -⟩ <;>
        rw [hfetch] at hn <;> cases hn
  | case3 m bytes m' hfetch hless hcomment ih =>
      rcases fetch_of_failsBehind hG h with ⟨-, n, hn⟩ | ⟨line, rest, n, rfl, hn, rfl, hrest, -⟩ <;>
        rw [hfetch] at hn <;> cases hn
      rcases ih hrest with hended | ⟨hfailed, next, more, hmore⟩
      · exact Or.inl hended
      · exact Or.inr ⟨hfailed, next, more,
          .comment (Text.startsWith_singleton_iff.mp hcomment) hmore⟩
  | case4 m bytes m' hfetch hless hlist more hread =>
      rcases fetch_of_failsBehind hG h with ⟨-, n, hn⟩ | ⟨line, rest, n, rfl, hn, rfl, hrest, -⟩ <;>
        rw [hfetch] at hn <;> cases hn
      exact Or.inl ⟨rest, hrest, Or.inl rfl⟩
  | case5 m bytes m' hfetch hless hlist more hread =>
      rcases fetch_of_failsBehind hG h with ⟨-, n, hn⟩ | ⟨line, rest, n, rfl, hn, rfl, hrest, -⟩ <;>
        rw [hfetch] at hn <;> cases hn
      exact Or.inl ⟨rest, hrest, Or.inr ⟨_, rfl⟩⟩
  | case6 m bytes m' hfetch hless hlist more hread ih =>
      rcases fetch_of_failsBehind hG h with ⟨-, n, hn⟩ | ⟨line, rest, n, rfl, hn, rfl, hrest, -⟩ <;>
        rw [hfetch] at hn <;> cases hn
      rw [HexList.readLine_skipBlanks] at hread
      rcases ih hrest with hended | ⟨hfailed, next, others, hothers⟩
      · exact Or.inl hended
      · exact Or.inr ⟨hfailed, next, more ++ others,
          .more (mt Text.startsWith_singleton_iff.mpr hlist)
            (HexList.readLine_eq_some_iff.mp hread) hothers⟩

/-- Without lines no line is taken. -/
theorem fetch_without_lines {n : Importer ListedLines σ κ} (hnone : n.lines.left = []) :
    n.fetch = (.ok false, n) := by
  have hnext : LineSupply.next n.lines = (.ok none, n.lines) := by
    show ListedLines.next n.lines = _
    rw [ListedLines.next, hnone]
  rw [fetch, hnext]

/-- The first line that is left is taken. -/
theorem exists_fetch_of_left {n : Importer ListedLines σ κ} {line : Text} {rest : List Text}
    (hleft : n.lines.left = line :: rest) :
    ∃ n', n.fetch = (.ok true, n') ∧ n'.line = line ∧ n'.lines = ⟨rest, n.lines.given + 1⟩ := by
  refine fetch_of_next ?_
  show ListedLines.next n.lines = _
  rw [ListedLines.next, hleft]

/-- A list of bytes that one more line would end has no end without that line. -/
theorem gather_of_unfinished {n : Importer ListedLines σ κ} {next : Text} {more : Bytes}
    (h : HexList.Continued (n.lines.left ++ [next]) more) (bytes : Bytes) :
    (n.gather bytes).1 = .missing := by
  induction hleft : n.lines.left generalizing n more bytes with
  | nil => rw [gather_of_end (fetch_without_lines hleft)]
  | cons line rest ih =>
      obtain ⟨n', hfetch, rfl, hlines⟩ := exists_fetch_of_left hleft
      have hrest : n'.lines.left = rest := by rw [hlines]
      rw [hleft, List.cons_append, ← hrest] at h
      generalize hall : n'.lines.left ++ [next] = all at h
      cases h with
      | last hlist hread => simp at hall
      | comment hcomment tail =>
          subst hall
          rw [gather_of_comment hfetch (Text.startsWith_singleton_iff.mpr hcomment)]
          exact ih tail bytes hrest
      | more hlist hread tail =>
          subst hall
          have hstart := Bool.eq_false_iff.mpr (mt Text.startsWith_singleton_iff.mp hlist)
          rw [gather_of_line hfetch hstart, HexList.readLine_skipBlanks,
            HexList.readLine_eq_some_iff.mpr hread]
          exact ih tail _ hrest

variable [RegistryStore σ κ]

/-- What a line states is done, unless it is a value that is not finished. -/
theorem obey_of_failsBehind (hG : LineSupply.FailsBehind message Open G) (h : G m.lines left)
    (r : Reading) :
    ((m.obey r).1 = .proceed 0 ∧ ∃ rest, G (m.obey r).2.lines rest) ∨
      ((m.obey r).1 = .failed (.io message) ∧ (m.obey r).2.store = m.store ∧
        (m.obey r).2.key = m.key ∧
        (m.obey r).2.report.diagnostics =
          (m.note (r.unknown.map .unknownEscape)).report.diagnostics ∧
        ∃ next w, r.statement.Sets (left ++ [next]) w) := by
  obtain ⟨unknown, statement⟩ := r
  let noted := m.note (unknown.map .unknownEscape)
  cases statement with
  | nothing | fault kind => exact Or.inl ⟨rfl, left, h⟩
  | key path => exact Or.inl ⟨rfl, left, (lines_openKey noted path).symm ▸ h⟩
  | value w => exact Or.inl ⟨rfl, left, (lines_write noted w).symm ▸ h⟩
  | entry path w =>
      have hlines : ((noted.openKey path).2.write w).lines = m.lines :=
        (lines_write _ w).trans (lines_openKey noted path)
      exact Or.inl ⟨rfl, left, hlines.symm ▸ h⟩
  | list name type bytes =>
      have hgather := gather_of_failsBehind (m := noted) hG h bytes
      obtain ⟨-, -, -, -, hkey, hstore⟩ := noted.kept_of_gather bytes
      have hnoted := noted.diagnostics_gather bytes
      simp only [obey, carryOut]
      revert hgather hkey hstore hnoted
      rcases noted.gather bytes with ⟨ending, m'⟩
      rintro (⟨rest, hrest, rfl | ⟨all, rfl⟩⟩ | ⟨rfl, next, more, hmore⟩) hkey hstore hnoted
      · exact Or.inl ⟨rfl, rest, hrest⟩
      · exact Or.inl ⟨rfl, rest, (lines_write m' _).symm ▸ hrest⟩
      · exact Or.inr ⟨rfl, hstore, hkey, hnoted, next, _, more, hmore, rfl⟩

/-- Only a value of a structured file goes on behind its line. -/
theorem unfinished_of_ofBody {state : ImportState} {line next : Text} {more : List Text}
    {w : KeyWrite} (h : (Reading.ofBody state line).statement.Sets (more ++ [next]) w) :
    state ≠ .windows31Line ∧ Unfinished line more ∧
      (Reading.ofBody state line).unknown = (Reading.ofLine line).unknown := by
  have hline : ∀ {line : Text}, (Reading.ofLine line).statement.Sets (more ++ [next]) w →
      Unfinished line more := fun hsets => ⟨next, w, Reading.sets_ofLine_iff.mp hsets⟩
  unfold Reading.ofBody at h ⊢
  split at h
  · unfold Reading.ofWindows31 at h
    split at h <;> cases h
  next _ hstate => exact ⟨hstate, hline h, rfl⟩

/-- The turn of a first line that is no header. -/
theorem turn_of_invalid_header (hstate : m.state = .header) (hfetch : m.fetch = (.ok true, m'))
    (hnone : (Dialect.ofHeader m'.line).isImportable = false) (place : Nat) :
    ∃ m'', m.turn place = (.failed (.ofHeader (Dialect.ofHeader m'.line) m'.line), m'') ∧
      m''.store = m.store ∧ m''.key = m.key := by
  obtain ⟨-, -, -, -, hkey, hstore⟩ := kept_of_fetch hfetch
  have houtside := m'.outside_classify
  refine ⟨m'.classify.2, ?_, (store_of_outside houtside).trans hstore,
    (key_of_outside houtside).trans hkey⟩
  rw [turn_header hstate, headerStep, hfetch]
  simp [classify, hnone]

/-- What a turn comes to in front of the lines `left`, behind which a read fails: it goes on, or
it does nothing because the read fails, or the first line is no header. -/
inductive TurnEnds (message : Text) (G : ρ → List Text → Prop) (left : List Text)
    (m : Importer ρ σ κ) : Progress × Importer ρ σ κ → Prop
  | goesOn {next : Nat} {m' : Importer ρ σ κ} {rest : List Text} (h : G m'.lines rest) :
      TurnEnds message G left m (.proceed next, m')
  | breaksOff {m' : Importer ρ σ κ} (h : BrokenOff left m m') :
      TurnEnds message G left m (.failed (.io message), m')
  | noHeader {first : Text} {m' : Importer ρ σ κ} (hstate : m.state = .header)
      (hfirst : first ∈ left.head?) (hnone : (Dialect.ofHeader first).isImportable = false) :
      TurnEnds message G left m (.failed (.ofHeader (Dialect.ofHeader first) first), m')

omit [RegistryStore σ κ] in
/-- A turn that fails with the message of the read is broken off by it. -/
theorem TurnEnds.brokenOff (h : TurnEnds message G left m (.failed (.io message), m')) :
    BrokenOff left m m' := by
  generalize hend : (Progress.failed (.io message), m') = r at h
  cases h with
  | goesOn h => cases hend
  | breaksOff h =>
      cases hend
      exact h
  | noHeader hstate hfirst hnone =>
      have hsame := Progress.failed.inj (congrArg Prod.fst hend)
      exact absurd hsame.symm (ImportError.ofHeader_ne_io _ _ _)

omit [RegistryStore σ κ] in
/-- A turn that only meets the failing read leaves no line behind. -/
theorem brokenOff_of_failed_fetch (hfetch : m.fetch = (.error (.io message), m')) :
    BrokenOff [] m m' := by
  obtain ⟨-, -, -, -, hkey, hstore⟩ := kept_of_fetch hfetch
  refine ⟨fun hnone => absurd rfl hnone, hstore, hkey, [], .nothing, ?_⟩
  rw [diagnostics_fetch hfetch, List.map_nil, List.append_nil]

/-- The turn of the first line goes on behind a header, and ends with the error of the line
behind no header. -/
theorem turnEnds_of_header {rest : List Text} (hheader : m.state = .header)
    (hfetch : m.fetch = (.ok true, m')) (hrest : G m'.lines rest) (place : Nat) :
    TurnEnds message G (m'.line :: rest) m (m.turn place) := by
  cases himportable : (Dialect.ofHeader m'.line).isImportable with
  | false =>
      obtain ⟨m'', hturn, -⟩ := turn_of_invalid_header hheader hfetch himportable place
      rw [hturn]
      exact .noHeader hheader rfl himportable
  | true =>
      have hturn : m.turn place = (.proceed 0, m'.classify.2) := by
        rw [turn_header hheader, headerStep, hfetch]
        simp only [classify, himportable, Bool.not_true, Bool.false_eq_true, if_false]
        split <;> rfl
      rw [hturn]
      exact .goesOn ((lines_of_outside m'.outside_classify).symm ▸ hrest)

/-- The turn of a line in the body goes on, unless the line begins a value that is not
finished. -/
theorem turnEnds_of_body {rest : List Text} (hG : LineSupply.FailsBehind message Open G)
    (hfront : m.state = m.front) (hfetch : m.fetch = (.ok true, m')) (hrest : G m'.lines rest)
    (hnumber : LineSupply.lineNumber m'.lines = LineSupply.lineNumber m.lines + 1) (place : Nat) :
    TurnEnds message G (m'.line :: rest) m (m.turn place) := by
  obtain ⟨-, -, -, -, hkey, hstore⟩ := kept_of_fetch hfetch
  obtain ⟨hprogress, hlines, hstoreTurn, hkeyTurn, -, -, hreport⟩ :=
    settled_eq_iff.mp (turn_of_line hfront hfetch place)
  rcases hend : m.turn place with ⟨progress, m''⟩
  rw [hend] at hprogress hlines hstoreTurn hkeyTurn hreport
  rcases obey_of_failsBehind (m := m'.anew m.front) hG hrest (.ofBody m.front m'.line) with
    ⟨hproceed, left, hleft⟩ | ⟨hfailed, hstoreObey, hkeyObey, hnoted, next, w, hsets⟩
  · rw [hproceed] at hprogress
    cases progress with
    | proceed next => exact .goesOn (hlines.symm ▸ hleft)
    | finished | failed e => cases hprogress
  · rw [hfailed] at hprogress
    obtain ⟨hstructured, hunfinished, hunknown⟩ := unfinished_of_ofBody hsets
    have hlineStart : m.state = .lineStart :=
      hfront.trans (if_neg fun hwindows => hstructured (if_pos hwindows))
    have hbroken : BrokenOff (m'.line :: rest) m m'' := by
      refine ⟨fun _ => hlineStart, (hstoreTurn.trans hstoreObey).trans hstore,
        (hkeyTurn.trans hkeyObey).trans hkey, _, .value hunfinished, ?_⟩
      have hdiagnostics := (congrArg ImportReport.diagnostics hreport).trans hnoted
      rw [hdiagnostics, hunknown]
      simp [note, anew, diagnostics_fetch hfetch, hnumber]
    cases progress with
    | failed e =>
        cases hprogress
        exact .breaksOff hbroken
    | proceed next | finished => cases hprogress

/-- **The turn that fails.**  In front of lines that fail an importer takes its turn and goes
on, or it does nothing. -/
theorem turn_of_failsBehind (hG : LineSupply.FailsBehind message Open G) (hm : m.Between)
    (h : G m.lines left) (place : Nat) : TurnEnds message G left m (m.turn place) := by
  rcases fetch_of_failsBehind hG h with ⟨rfl, m', hfetch⟩ |
    ⟨line, rest, m', rfl, hfetch, rfl, hrest, hnumber⟩
  · -- no line is left, so the read fails
    have hturn : m.turn place = (.failed (.io message), m') := by
      rcases hm with hheader | hfront
      · rw [turn_header hheader, headerStep, hfetch]
      · exact turn_of_error hfront hfetch
    rw [hturn]
    exact .breaksOff (brokenOff_of_failed_fetch hfetch)
  · rcases hm with hheader | hfront
    · exact turnEnds_of_header hheader hfetch hrest place
    · exact turnEnds_of_body hG hfront hfetch hrest hnumber place

/-- The loop comes to the turn that fails, if the first line is a header. -/
theorem exists_failed_turn (hG : LineSupply.FailsBehind message Open G) (hm : m.Between)
    (hheader : m.state = .header → ∀ first ∈ left.head?,
      (Dialect.ofHeader first).isImportable = true)
    (h : G m.lines left) (place : Nat) :
    ∃ m' place' m'', m.Visits place m' place' ∧ Open m'.lines ∧
      m'.turn place' = (.failed (.io message), m'') ∧
      ∀ rest, G m'.lines rest → BrokenOff rest m' m'' := by
  induction m, place using loop_induct generalizing left with
  | goesOn m place next m' hturn ih =>
      have hends := turn_of_failsBehind hG hm h place
      rw [hturn] at hends
      cases hends with
      | goesOn hrest =>
          have hfront : m'.state = m'.front := front_turn hm hturn
          have hbody : m'.state ≠ .header := by
            rw [hfront, front]
            split <;> simp
          obtain ⟨m₁, place', m₂, hvisits, hlast⟩ :=
            ih (Or.inr hfront) (fun hstate => absurd hstate hbody) hrest
          exact ⟨m₁, place', m₂, .turn hturn hvisits, hlast⟩
  | finished m place m' hturn =>
      have hends := turn_of_failsBehind hG hm h place
      rw [hturn] at hends
      cases hends
  | failed m place e m' hturn =>
      have hends := turn_of_failsBehind hG hm h place
      rw [hturn] at hends
      cases hends with
      | breaksOff _ =>
          refine ⟨m, place, m', .here m place, hG.isOpen h, hturn, fun rest hrest => ?_⟩
          have hends := turn_of_failsBehind hG hm hrest place
          rw [hturn] at hends
          exact hends.brokenOff
      | noHeader hstate hfirst hnone =>
          rw [hheader hstate _ hfirst] at hnone
          cases hnone

/-! ### Other imports at the moment of the failure -/

/-- The importers hold the same and have noted the same. -/
structure Agrees {ρ ρ' : Type} (m : Importer ρ σ κ) (n : Importer ρ' σ κ) : Prop where
  store : n.store = m.store
  key : n.key = m.key
  diagnostics : n.report.diagnostics = m.report.diagnostics

/-- Without lines an import takes its last turn. -/
theorem turn_without_lines {n n' : Importer ListedLines σ κ} {next : Nat} (hn : n.Between)
    (hnone : n.lines.left = []) : n.turn place ≠ (.proceed next, n') := by
  have hfetch := fetch_without_lines hnone
  rcases hn with hheader | hfront
  · rw [turn_header hheader, headerStep, hfetch]
    exact classify_ne_proceed rfl
  · rw [turn_of_end hfront hfetch]
    intro hturn
    cases hturn

/-- A value that is not finished when the lines are over ends the import. -/
theorem obey_of_unfinished {n : Importer ListedLines σ κ} {r : Reading} {last : Text}
    {w : KeyWrite} (h : r.statement.Sets (n.lines.left ++ [last]) w) :
    (n.obey r).1 = .finished := by
  obtain ⟨unknown, statement⟩ := r
  cases statement with
  | nothing | key path | entry path v | fault kind => exact h.elim
  | value v => exact absurd h.2 (by simp)
  | list name type bytes =>
      obtain ⟨more, hmore, -⟩ := h
      have hmissing := gather_of_unfinished (n := n.note (unknown.map .unknownEscape)) hmore bytes
      simp only [obey, carryOut]
      revert hmissing
      rcases (n.note (unknown.map .unknownEscape)).gather bytes with ⟨ending, n'⟩
      rintro rfl
      rfl

/-- In front of lines that are cut off an import that has no others takes its last turn. -/
theorem turn_of_cutOff {n n' : Importer ListedLines σ κ} {unknown : List Char} {next : Nat}
    (hn : n.Between) (hcut : CutOff n.lines.left unknown)
    (hstate : n.lines.left ≠ [] → n.state = .lineStart) : n.turn place ≠ (.proceed next, n') := by
  generalize hleft : n.lines.left = left at hcut
  cases hcut with
  | nothing => exact turn_without_lines hn hleft
  | @value line more h =>
      obtain ⟨last, w, hvalue⟩ := h
      have hstart : n.state = .lineStart := hstate (by rw [hleft]; exact List.cons_ne_nil _ _)
      have hfront : n.state = n.front := by
        rcases hn with hheader | hfront
        · cases hstart.symm.trans hheader
        · exact hfront
      obtain ⟨n₁, hfetch, rfl, hlines⟩ := exists_fetch_of_left hleft
      have hprogress := (settled_eq_iff.mp (turn_of_line hfront hfetch place)).1
      rw [← hfront, hstart] at hprogress
      have hsets : (Reading.ofLine n₁.line).statement.Sets (n₁.lines.left ++ [last]) w := by
        rw [hlines]
        exact Reading.sets_ofLine_iff.mpr hvalue
      have hfinished : ((n₁.anew .lineStart).obey (Reading.ofLine n₁.line)).1 = .finished :=
        obey_of_unfinished hsets
      intro hturn
      rw [hturn] at hprogress
      exact absurd (hprogress.trans (congrArg Progress.unplaced hfinished)) nofun

/-- Without lines an import does nothing. -/
theorem agrees_loop_without_lines {n : Importer ListedLines σ κ} (hn : n.Between)
    (hnone : n.lines.left = []) (place : Nat) : Agrees n (n.loop place).2 := by
  have hfetch := fetch_without_lines hnone
  have hloop : (n.loop place).2 = (n.turn place).2 := by
    rcases hend : n.turn place with ⟨next | _ | e, n'⟩
    · exact absurd hend (turn_without_lines hn hnone)
    · rw [loop_of_last_turn hend]
    · rw [loop_of_failed_turn hend]
  rw [hloop]
  rcases hn with hheader | hfront
  · have hturn : n.turn place = Importer.classify { n with line := [] } := by
      rw [turn_header hheader, headerStep, hfetch]
    have houtside := Importer.outside_classify { n with line := [] }
    rw [hturn]
    exact ⟨store_of_outside houtside, key_of_outside houtside, Importer.diagnostics_classify _⟩
  · rw [turn_of_end hfront hfetch]
    exact ⟨rfl, rfl, rfl⟩

/-- **What an import has done at a moment is what an import of the lines given until then
does.** -/
theorem agrees_loop_of_given {n n' : Importer ListedLines σ κ} {next : Nat} (hn : n.Between)
    (hgiven : n.lines.given = 0) (hclean : n.report.diagnostics = [])
    (hvisits : n.Visits place n' next) :
    ∃ done, n.lines.left = done ++ n'.lines.left ∧ n'.lines.given = done.length ∧
      ∀ place',
        Agrees n' (Importer.loop { n with lines := (⟨done, 0⟩ : ListedLines) } place').2 := by
  have hinv : Invariant fun m : Importer ListedLines σ κ => m.lines.TakenFrom n.lines.left :=
    invariant_lines (ListedLines.TakenFrom n.lines.left) fun _ h => h.next
  have hfresh : n.lines.TakenFrom n.lines.left := ⟨[], rfl, hgiven⟩
  obtain ⟨⟨done, hleft, hlength⟩, hn'⟩ := hinv.visits hfresh hn hvisits
  refine ⟨done, hleft, hlength, fun place' => ?_⟩
  have hends : LineSupply.Shifted _ 0 (ListedLines.ForkAt 0 n'.lines.left []) :=
    shifted_ends 0 fun _ => rfl
  have hbeside : Beside (ListedLines.ForkAt 0 n'.lines.left []) 0 [] [] n
      { n with lines := (⟨done, 0⟩ : ListedLines) } :=
    ⟨⟨hgiven, done, hleft, (List.append_nil done).symm⟩, rfl, rfl, rfl, rfl, [], hclean, hclean⟩
  obtain ⟨next', p, hvisits', hp⟩ :=
    (lockstep_beside hends [] []).visits hvisits hbeside hn (Nat.le_refl _) place'
  obtain ⟨-, front, hfront, hrest⟩ := hp.lines
  obtain rfl : front = [] := by simpa using hfront
  have hbetween : p.Between := by
    rcases hn' with hheader | hbody
    · exact Or.inl (hp.state.trans hheader)
    · exact Or.inr ((hp.state.trans hbody).trans (front_congr hp.dialect).symm)
  have hended := agrees_loop_without_lines hbetween hrest next'
  rw [hvisits'.loop_eq]
  exact ⟨hended.store.trans hp.store, hended.key.trans hp.key,
    hended.diagnostics.trans hp.diagnostics_eq⟩

/-- **How a loop ends that meets a failing read.**  It is broken off where a loop over all lines
takes its last turn, where a loop over the lines `done` ends, and where a loop over longer lines
goes on. -/
theorem loop_of_failsBehind (hG : LineSupply.FailsBehind message Open G) {encoding : FileEncoding}
    (hstate : m.state = .header) (hkey : m.key = none) (hdialect : m.dialect = none)
    (hreport : m.report = { encoding := encoding })
    (hnumber : LineSupply.lineNumber m.lines = 0) (h : G m.lines left)
    (hheader : ∀ first ∈ left.head?, (Dialect.ofHeader first).isImportable = true) :
    ∃ m₁ m', m.loop 0 = (.error (.io message), m') ∧
      (∃ done rest, left = done ++ rest ∧ LineSupply.lineNumber m₁.lines = done.length ∧
        (∃ (n : Importer ListedLines σ κ) (next : Nat),
          (ofLines encoding left m.store).TakesLastTurn n next ∧ n.lines = ⟨rest, done.length⟩) ∧
        Agrees m₁ ((ofLines encoding done m.store : Importer ListedLines σ κ).loop 0).2 ∧
        BrokenOff rest m₁ m') ∧
      ∀ behind, ∃ (n : Importer ListedLines σ κ) (next : Nat),
        (ofLines encoding (left ++ behind) m.store).Visits 0 n next ∧ Agrees m₁ n := by
  have hm : m.Between := Or.inl hstate
  obtain ⟨m₁, place, m', hvisits, hopen, hturn, hbroken⟩ :=
    exists_failed_turn hG hm (fun _ => hheader) h 0
  have hbeside : ∀ behind, ∃ (next : Nat) (n : Importer ListedLines σ κ),
      (ofLines encoding (left ++ behind) m.store).Visits 0 n next ∧
        Beside (LineSupply.Foresees G behind) 0 [] [] m₁ n := by
    intro behind
    have hfresh : Beside (LineSupply.Foresees G behind) 0 [] [] m
        (ofLines encoding (left ++ behind) m.store) :=
      ⟨⟨left, h, by rw [hnumber]; rfl⟩, hstate.symm, by rw [hdialect]; rfl,
        hkey.symm, rfl, [], by rw [hreport]; rfl, rfl⟩
    exact (lockstep_beside (hG.shifted behind) [] []).visits hvisits hfresh hm hopen 0
  refine ⟨m₁, m', ?_, ?_, fun behind => ?_⟩
  · rw [hvisits.loop_eq, loop_of_failed_turn hturn]
  · obtain ⟨next, n, hlisted, hn⟩ := hbeside []
    obtain ⟨rest, hrest, hlines⟩ := hn.lines
    obtain ⟨done, hleft, hlength, hdone⟩ := agrees_loop_of_given (Or.inl rfl) rfl rfl hlisted
    rw [List.append_nil] at hlisted hlines
    rw [hlines] at hleft hlength
    have hbroken := hbroken rest hrest
    obtain ⟨unknown, hcut, -⟩ := hbroken.noted
    have hbetween : n.Between :=
      hlisted.induct (fun hfirst hturn => Or.inr (front_turn hfirst hturn)) (Or.inl rfl)
    have hlast : (ofLines encoding left m.store).TakesLastTurn n next :=
      ⟨hlisted, fun _ _ => turn_of_cutOff hbetween (by rwa [hlines])
        fun hne => hn.state.trans (hbroken.state (by rwa [hlines] at hne))⟩
    have hended := hdone 0
    refine ⟨done, rest, by simpa [ofLines] using hleft, hlength,
      ⟨n, next, hlast, hlines.trans (congrArg (ListedLines.mk rest) hlength)⟩, ⟨?_, ?_, ?_⟩, hbroken⟩
    · exact hended.store.trans hn.store
    · exact hended.key.trans hn.key
    · exact hended.diagnostics.trans hn.diagnostics_eq
  · obtain ⟨next, n, hlisted, hn⟩ := hbeside behind
    exact ⟨n, next, hlisted, hn.store, hn.key, hn.diagnostics_eq⟩

end Importer

end RegistryText
