import RegistryText.Proofs.Import.Beside
import RegistryText.Proofs.Import.ByteDependence
import RegistryText.Proofs.Import.Diagnostics
import RegistryText.Proofs.Import.VoidLine

/-!
# Files without their void lines

A line with a line-local problem may be removed from its file, together with the lines
that it took as the continuation of its list.  **The import of the other file ends in
the same way, leaves the same store, and notes the problems of the other lines**
(`run_without_lines`).

The two imports are beside each other up to the line; the turn that takes it keeps what
the first importer holds; and from there on they are beside each other again, with line
numbers that differ by the number of removed lines.
-/

namespace RegistryText

/-! ### Diagnostics of the other lines -/

/-- What becomes of a diagnostic when `count` lines behind the first `front` ones are
removed: it goes with its line, or moves up. -/
def Diagnostic.withoutLines? (front count : Nat) (d : Diagnostic) : Option Diagnostic :=
  if d.line ≤ front then some d
  else if d.line ≤ front + count then none
  else some { d with line := d.line - count }

/-- The diagnostics of the other lines. -/
def withoutLines (front count : Nat) (ds : List Diagnostic) : List Diagnostic :=
  ds.filterMap (Diagnostic.withoutLines? front count)

section Diagnostics

variable {front count : Nat} {ds : List Diagnostic}

theorem withoutLines_append (more : List Diagnostic) : withoutLines front count (ds ++ more) =
    withoutLines front count ds ++ withoutLines front count more :=
  List.filterMap_append

/-- No diagnostic goes if none is one of the removed lines. -/
theorem withoutLines_map {f : Diagnostic → Diagnostic}
    (h : ∀ d ∈ ds, (f d).withoutLines? front count = some d) :
    withoutLines front count (ds.map f) = ds := by
  induction ds with
  | nil => rfl
  | cons d ds ih =>
      have htail := ih fun d' hd' => h d' (List.mem_cons_of_mem d hd')
      rw [withoutLines, List.map_cons, List.filterMap_cons_some (h d List.mem_cons_self)]
      exact congrArg (d :: ·) htail

theorem withoutLines_of_le (h : ∀ d ∈ ds, d.line ≤ front) : withoutLines front count ds = ds := by
  have hkept : withoutLines front count (ds.map id) = ds :=
    withoutLines_map fun d hd => if_pos (h d hd)
  rwa [List.map_id] at hkept

theorem withoutLines_of_removed (h : ∀ d ∈ ds, front + 1 ≤ d.line ∧ d.line ≤ front + count) :
    withoutLines front count ds = [] := by
  refine List.filterMap_eq_nil_iff.mpr fun d hd => ?_
  obtain ⟨hlow, hhigh⟩ := h d hd
  rw [Diagnostic.withoutLines?, if_neg (by omega), if_pos hhigh]

theorem withoutLines_movedDown (h : ∀ d ∈ ds.map (Diagnostic.movedDown count),
    front + count + 1 ≤ d.line) :
    withoutLines front count (ds.map (Diagnostic.movedDown count)) = ds := by
  refine withoutLines_map fun d hd => ?_
  have hlow : front + count + 1 ≤ d.line + count := h _ (List.mem_map_of_mem hd)
  have hfront : ¬d.line + count ≤ front := by omega
  have hremoved : ¬d.line + count ≤ front + count := by omega
  have hline : d.line + count - count = d.line := Nat.add_sub_cancel ..
  simp only [Diagnostic.withoutLines?, Diagnostic.movedDown, if_neg hfront, if_neg hremoved, hline]

end Diagnostics

/-! ### Lines of a list -/

namespace ListedLines

/-- What is left of some lines when the first ones have been given. -/
def TailOf (all : List Text) (lines : ListedLines) : Prop :=
  lines.left = all.drop lines.given

theorem TailOf.next {all : List Text} {lines : ListedLines} (h : lines.TailOf all) :
    TailOf all (LineSupply.next lines).2 := by
  obtain ⟨_ | ⟨line, left⟩, given⟩ := lines
  · exact h
  · show left = all.drop (given + 1)
    rw [← List.tail_drop, ← h]
    rfl

end ListedLines

namespace Importer

variable {σ κ : Type} [RegistryStore σ κ]

/-- A line that names a dialect has more than one character. -/
theorem two_le_of_isImportable {line : Text} (h : (Dialect.ofHeader line).isImportable = true) :
    2 ≤ line.length := by
  have hlength : line.skipBlanks.length ≤ line.length :=
    (List.dropWhile_sublist _).length_le
  have hheader : 2 ≤ line.skipBlanks.length := by
    simp only [Dialect.ofHeader] at h
    split at h
    next heq => rw [heq]; decide
    split at h
    next heq => rw [heq]; decide
    split at h
    next heq => rw [heq]; decide
    split at h <;> cases h
  exact Nat.le_trans hheader hlength

/-- An import that has come to its body has a first line of more than one character. -/
theorem two_le_of_visits {encoding : FileEncoding} {lines : List Text} {store : σ}
    {m : Importer ListedLines σ κ} {place : Nat}
    (hvisits : (ofLines encoding lines store).Visits 0 m place) (hstate : m.state = .lineStart) :
    ∃ line ∈ lines, 2 ≤ line.length := by
  cases hvisits with
  | here => cases hstate
  | turn first rest =>
      rw [turn_header rfl] at first
      cases lines with
      | nil =>
          have hfetch : (ofLines encoding [] store : Importer ListedLines σ κ).fetch =
              (.ok false, ofLines encoding [] store) := rfl
          simp only [headerStep, hfetch] at first
          exact absurd first (classify_ne_proceed rfl)
      | cons line lines =>
          refine ⟨line, List.mem_cons_self, two_le_of_isImportable ?_⟩
          change classify _ = _ at first
          simp only [classify] at first
          split at first
          · cases first
          next himportable => simpa using himportable

/-- What a run notes before a turn, in it and behind it, if the loop goes on behind it. -/
theorem noted_of_visits {ρ : Type} [LineSupply ρ] (hcount : LineSupply.Counts ρ)
    {m₀ m : Importer ρ σ κ} {place next : Nat} (hvisits : m₀.Visits 0 m place)
    (hfresh : m₀.Between) (hclean : m₀.report.diagnostics = [])
    (hbehind : (m.turn place).2.Between) (hloop : m.loop place = (m.turn place).2.loop next) :
    ∃ noted more,
      (m.turn place).2.report.diagnostics = m.report.diagnostics ++ noted ∧
      m₀.run.2.report.diagnostics = (m.turn place).2.report.diagnostics ++ more ∧
      (∀ d ∈ m.report.diagnostics, d.line ≤ LineSupply.lineNumber m.lines) ∧
      (∀ d ∈ noted, LineSupply.lineNumber m.lines + 1 ≤ d.line ∧
        d.line ≤ LineSupply.lineNumber (m.turn place).2.lines) ∧
      ∀ d ∈ more, LineSupply.lineNumber (m.turn place).2.lines + 1 ≤ d.line := by
  have hbetween := hfresh.visits hvisits
  obtain ⟨-, noted, hnoted, -, hwithin⟩ := noted_turn hcount hbetween place
  obtain ⟨-, more, hmore, -, hafter⟩ := noted_loop hcount hbehind next
  refine ⟨noted, more, hnoted, ?_, ?_, hwithin, fun d hd => (hafter d hd).1⟩
  · rw [report_run, hvisits.loop_eq, hloop, hmore]
  · exact line_le_of_visits hcount hfresh (by simp [hclean]) hvisits

/-- Behind a line with a line-local problem the loop goes on, be it only to meet the end
of all lines again. -/
theorem loop_of_isLineLocal {m : Importer ListedLines σ κ} (hfront : m.state = m.front)
    {place : Nat} (hlocal : (m.turn place).2.lineLocal ≠ m.lineLocal) :
    (m.turn place).2.Between ∧ ∃ next, m.loop place = (m.turn place).2.loop next := by
  obtain ⟨hstate, hdialect, -, -, hread⟩ := kept_of_isLineLocal hfront hlocal
  have hfront' : (m.turn place).2.state = (m.turn place).2.front := by
    rw [hstate, front_congr hdialect, hfront]
  refine ⟨Or.inr hfront', ?_⟩
  rcases hturn : m.turn place with ⟨next | _ | e, m'⟩
  · exact ⟨next, loop_of_turn hturn⟩
  · rw [hturn] at hfront'
    have hfetch : m'.fetch = (.ok false, m') := by
      obtain ⟨⟨left, given⟩, hnext⟩ := end_of_turn hfront hturn
      cases left with
      | cons line left => cases hnext
      | nil =>
          have hlines : m'.lines = ⟨[], given⟩ := (congrArg Prod.snd hnext).symm
          have hagain : LineSupply.next m'.lines = (.ok none, m'.lines) := by rw [hlines]; rfl
          simp only [fetch, hagain]
    exact ⟨0, (loop_of_last_turn hturn).trans
      (loop_of_last_turn (turn_of_end hfront' hfetch)).symm⟩
  · exact absurd (congrArg Prod.fst hturn) (hread e)

/-! ### Two imports of lists of lines -/

section Fork

variable {encoding : FileEncoding} (encoding' : FileEncoding) {front removed rest : List Text}
  {store : σ} {m : Importer ListedLines σ κ} {place : Nat}

/-- The lines that are left at a moment, and behind its turn. -/
theorem tailOf_of_visits {lines : List Text}
    (hvisits : (ofLines encoding lines store).Visits 0 m place) :
    m.lines.TailOf lines ∧ (m.turn place).2.lines.TailOf lines ∧ m.Between := by
  have hinv := invariant_lines (σ := σ) (κ := κ) (ListedLines.TailOf lines) fun _ h => h.next
  obtain ⟨htail, hbetween⟩ :=
    hinv.visits (m := ofLines encoding lines store) rfl (Or.inl rfl) hvisits
  exact ⟨htail, hinv.turn htail hbetween place, hbetween⟩

/-- Up to the removed lines the other import comes to the same moments. -/
theorem visits_without
    (hvisits : (ofLines encoding (front ++ (removed ++ rest)) store).Visits 0 m place)
    (hfront : m.lines.given = front.length) :
    ∃ n next, (ofLines encoding' (front ++ rest) store).Visits 0 n next ∧
      n.lines = ⟨rest, front.length⟩ ∧
      Beside (ListedLines.ForkAt 0 (removed ++ rest) rest) 0 [] [] m n := by
  have hleft : m.lines.left = removed ++ rest := by
    rw [(tailOf_of_visits hvisits).1, hfront, List.drop_left]
  have hfresh : Beside (ListedLines.ForkAt 0 (removed ++ rest) rest) 0 [] []
      (ofLines (κ := κ) encoding (front ++ (removed ++ rest)) store)
      (ofLines encoding' (front ++ rest) store) :=
    { lines := ⟨rfl, front, rfl, rfl⟩, state := rfl, dialect := rfl, key := rfl, store := rfl,
      noted := ⟨[], rfl, rfl⟩ }
  have hend : removed ++ rest = [] → rest = [] := fun h => (List.append_eq_nil_iff.mp h).2
  obtain ⟨next, n, hvisits', hbeside⟩ :=
    (lockstep_beside (shifted_ends 0 hend) [] []).visits hvisits hfresh (Or.inl rfl)
      (Nat.le_of_eq (congrArg List.length hleft.symm)) 0
  refine ⟨n, next, hvisits', ?_, hbeside⟩
  obtain ⟨hgiven, common, hcommon, hleft'⟩ := hbeside.lines
  obtain rfl : common = [] := by
    rw [hleft] at hcommon
    exact List.self_eq_append_left.mp hcommon
  rcases hlines : n.lines with ⟨left, given⟩
  rw [hlines] at hleft' hgiven
  obtain rfl : left = rest := hleft'
  rw [hfront] at hgiven
  exact congrArg (ListedLines.mk left) hgiven.symm

/-- Behind the removed lines the imports are beside each other again. -/
theorem beside_without (hfrontState : m.state = m.front)
    (hlocal : (m.turn place).2.lineLocal ≠ m.lineLocal)
    (hlines : (m.turn place).2.lines = ⟨rest, front.length + removed.length⟩)
    {n : Importer ListedLines σ κ} (hlines' : n.lines = ⟨rest, front.length⟩)
    {S : ListedLines → ListedLines → Prop} (hbeside : Beside S 0 [] [] m n) :
    Beside (ListedLines.ForkAt removed.length [] []) removed.length
      (m.turn place).2.report.diagnostics m.report.diagnostics (m.turn place).2 n := by
  obtain ⟨hstate, hdialect, hkey, hstore, -⟩ := kept_of_isLineLocal hfrontState hlocal
  exact {
    lines := by
      rw [hlines, hlines']
      exact ⟨rfl, rest, (List.append_nil rest).symm, (List.append_nil rest).symm⟩
    state := hbeside.state.trans hstate.symm
    dialect := hbeside.dialect.trans hdialect.symm
    key := hbeside.key.trans hkey.symm
    store := hbeside.store.trans hstore.symm
    noted := ⟨[], (List.append_nil _).symm, hbeside.diagnostics_eq.trans (List.append_nil _).symm⟩ }

/-- So are they when they have run. -/
theorem beside_run_without
    (hvisits : (ofLines encoding (front ++ (removed ++ rest)) store).Visits 0 m place)
    (hstate : m.state = .lineStart) (hlocal : (m.turn place).2.lineLocal ≠ m.lineLocal)
    (hfront : m.lines.given = front.length)
    (hremoved : (m.turn place).2.lines.given = front.length + removed.length) :
    let run := (ofLines (κ := κ) encoding (front ++ (removed ++ rest)) store).run
    let run' := (ofLines (κ := κ) encoding' (front ++ rest) store).run
    run'.1 = run.1 ∧ Beside (ListedLines.ForkAt removed.length [] []) removed.length
      (m.turn place).2.report.diagnostics m.report.diagnostics run.2 run'.2 := by
  obtain ⟨-, htail, hbetween⟩ := tailOf_of_visits hvisits
  have hfrontState := hbetween.eq_front hstate
  have hlines : (m.turn place).2.lines = ⟨rest, front.length + removed.length⟩ := by
    rcases hrest : (m.turn place).2.lines with ⟨left, given⟩
    rw [hrest] at htail hremoved
    obtain rfl : given = front.length + removed.length := hremoved
    have hleft : left = (front ++ (removed ++ rest)).drop (front.length + removed.length) := htail
    rw [hleft, ← List.append_assoc, ← List.length_append, List.drop_left, List.length_append]
  obtain ⟨n, next', hvisits', hlines', hbeside⟩ := visits_without encoding' hvisits hfront
  have hbehind := beside_without hfrontState hlocal hlines hlines' hbeside
  obtain ⟨hbetween', next, hloop⟩ := loop_of_isLineLocal hfrontState hlocal
  have hend : ([] : List Text) = [] → ([] : List Text) = [] := fun h => h
  have hlockstep := lockstep_beside (σ := σ) (κ := κ) (shifted_ends removed.length hend)
    (m.turn place).2.report.diagnostics m.report.diagnostics
  obtain ⟨hended, hrelated⟩ :=
    hlockstep.loop (fun lines => Nat.zero_le _) hbehind hbetween' next next'
  rw [← hloop, ← hvisits.loop_eq, ← hvisits'.loop_eq] at hended hrelated
  exact hlockstep.toCompanions.run (fun h => h.finish ListedLines.ForkAt.close) hended hrelated

/-- **The import without the removed lines ends in the same way.** -/
theorem run_ofLines_without
    (hvisits : (ofLines encoding (front ++ (removed ++ rest)) store).Visits 0 m place)
    (hstate : m.state = .lineStart) (hlocal : (m.turn place).2.lineLocal ≠ m.lineLocal)
    (hfront : m.lines.given = front.length)
    (hremoved : (m.turn place).2.lines.given = front.length + removed.length) :
    let run := (ofLines (κ := κ) encoding (front ++ (removed ++ rest)) store).run
    let run' := (ofLines (κ := κ) encoding' (front ++ rest) store).run
    run'.1 = run.1 ∧ run'.2.store = run.2.store ∧
      run'.2.report.diagnostics =
        withoutLines front.length removed.length run.2.report.diagnostics := by
  intro run run'
  obtain ⟨houtcome, hrun⟩ := beside_run_without encoding' hvisits hstate hlocal hfront hremoved
  refine ⟨houtcome, hrun.store, ?_⟩
  obtain ⟨later, hdiags, hdiags'⟩ := hrun.noted
  obtain ⟨hbetween', next, hloop⟩ :=
    loop_of_isLineLocal ((tailOf_of_visits hvisits).2.2.eq_front hstate) hlocal
  obtain ⟨noted, more, hnoted, hmore, hbefore, hwithin, hafter⟩ :=
    noted_of_visits ListedLines.counts hvisits (Or.inl rfl) rfl hbetween' hloop
  obtain rfl : more = later.map (Diagnostic.movedDown removed.length) :=
    List.append_cancel_left (hmore.symm.trans hdiags)
  rw [show LineSupply.lineNumber m.lines = front.length from hfront] at hbefore hwithin
  rw [show LineSupply.lineNumber (m.turn place).2.lines = front.length + removed.length
    from hremoved] at hwithin hafter
  calc run'.2.report.diagnostics
      = m.report.diagnostics ++ later := hdiags'
    _ = withoutLines front.length removed.length (m.report.diagnostics ++ noted ++
          later.map (Diagnostic.movedDown removed.length)) := by
        rw [withoutLines_append, withoutLines_append, withoutLines_of_le hbefore,
          withoutLines_of_removed hwithin, withoutLines_movedDown hafter, List.append_nil]
    _ = withoutLines front.length removed.length run.2.report.diagnostics := by
        rw [hmore, hnoted]

end Fork

/-! ### Imports of sources -/

/-- An importer of a source stands beside one of the list of its lines, and ends with it. -/
theorem beside_of_delivers {source : Source} {bytes : Bytes} (h : source.Delivers bytes) {store : σ}
    {options : ImportOptions} {m₀ : Importer LineReader σ κ}
    (hm₀ : ofSource source store options = .ok m₀) :
    let listed := ofLines (fileEncoding bytes) (fileLines options.page bytes) store
    m₀.Between ∧ Beside LineReader.Lists 0 [] [] m₀ listed ∧ listed.run.1 = m₀.run.1 ∧
      Beside LineReader.Lists 0 [] [] m₀.run.2 listed.run.2 := by
  intro listed
  obtain ⟨hlists, hheader, hkey, hdialect, hstore, hreport⟩ := listed_of_delivers h hm₀
  have hbeside : Beside LineReader.Lists 0 [] [] m₀ listed :=
    { lines := hlists
      state := hheader.symm
      dialect := hdialect.symm
      key := hkey.symm
      store := hstore.symm
      noted := ⟨[], by rw [hreport]; rfl, rfl⟩ }
  exact ⟨Or.inl hheader, hbeside, (lockstep_beside LineReader.alike_listed.shifted [] []).run
    (fun _ => trivial) (fun h => h.finish LineReader.alike_listed.close) hbeside (Or.inl hheader)⟩

end Importer

/-- **Line-local problems are contained.**  Take any line of the body of a structured file
on which the import notes a line-local problem, with the lines that it takes as the
continuation of its list.  The import of a file of the other lines has the same outcome and
leaves the same store, its log included; its diagnostics are those of the other lines, in
the same order, and later lines have moved up by the number of removed ones. -/
theorem run_without_lines {σ κ : Type} [RegistryStore σ κ] {source source' : Source}
    {bytes bytes' : Bytes} (h : source.Delivers bytes) (h' : source'.Delivers bytes') {store : σ}
    {options : ImportOptions} {m₀ m : Importer LineReader σ κ} {place : Nat}
    (hm₀ : Importer.ofSource source store options = .ok m₀) (hvisits : m₀.Visits 0 m place)
    (hstate : m.state = .lineStart) {noted : List Diagnostic}
    (hnoted : (m.turn place).2.report.diagnostics = m.report.diagnostics ++ noted)
    (hlocal : ∃ d ∈ noted, d.kind.isLineLocal = true) {front removed rest : List Text}
    (hlines : fileLines options.page bytes = front ++ removed ++ rest)
    (hfront : m.lines.lineNumber = front.length)
    (hremoved : (m.turn place).2.lines.lineNumber = front.length + removed.length)
    (hlines' : fileLines options.page bytes' = front ++ rest) :
    ∃ n₀ : Importer LineReader σ κ, Importer.ofSource source' store options = .ok n₀ ∧
      n₀.run.1 = m₀.run.1 ∧ n₀.run.2.store = m₀.run.2.store ∧
      n₀.run.2.report.diagnostics =
        withoutLines front.length removed.length m₀.run.2.report.diagnostics := by
  obtain ⟨hfresh, hbeside, houtcome, hrun⟩ := Importer.beside_of_delivers h hm₀
  have hlockstep := Importer.lockstep_beside (σ := σ) (κ := κ) LineReader.alike_listed.shifted [] []
  -- The moment in front of the void line, and the one behind its turn, among the listed lines.
  obtain ⟨next, n, hvisits', hmoment⟩ := hlockstep.visits hvisits hbeside hfresh trivial 0
  obtain ⟨-, hbehind⟩ := hlockstep.turn hmoment (hfresh.visits hvisits) place next trivial
  rw [hlines, List.append_assoc] at hvisits' houtcome hrun
  have hlocal' : (n.turn next).2.lineLocal ≠ n.lineLocal := by
    rw [Importer.lineLocal_congr hbehind.diagnostics_eq,
      Importer.lineLocal_congr hmoment.diagnostics_eq]
    exact Importer.lineLocal_ne hnoted hlocal
  have hstate' := hmoment.state.trans hstate
  obtain ⟨houtcome', hstore', hdiagnostics'⟩ := Importer.run_ofLines_without (fileEncoding bytes')
    hvisits' hstate' hlocal' (hmoment.lines.1.trans hfront) (hbehind.lines.1.trans hremoved)
  have hlong : 2 ≤ bytes'.length := by
    obtain ⟨n', next', hvisits'', -, hbeside'⟩ :=
      Importer.visits_without (fileEncoding bytes') hvisits' (hmoment.lines.1.trans hfront)
    obtain ⟨line, hline, htwo⟩ :=
      Importer.two_le_of_visits hvisits'' (hbeside'.state.trans hstate')
    refine Nat.le_of_not_lt fun hshort => ?_
    rw [← hlines'] at hline
    exact absurd (Nat.le_trans htwo (length_le_of_mem_fileLines hshort hline)) (by decide)
  match bytes', hlong with
  | first :: second :: behind, _ =>
      obtain ⟨rest', -, hmade⟩ := Importer.ofSource_of_delivers (κ := κ) h' store options
      obtain ⟨-, -, houtcome'', hrun'⟩ := Importer.beside_of_delivers h' hmade
      rw [hlines'] at houtcome'' hrun'
      refine ⟨_, hmade, ?_, ?_, ?_⟩
      · rw [← houtcome'', houtcome', houtcome]
      · rw [← hrun'.store, hstore', hrun.store]
      · rw [← hrun'.diagnostics_eq, hdiagnostics', hrun.diagnostics_eq]

/-- A file with a list of bytes, behind an unknown escape, that breaks off on its third line. -/
def brokenListText : Text :=
  "REGEDIT4\r\n[HKCU\\A]\n\"\\q\"=hex:1,\\\n ;\n zz\n\"b\"=dword:1\n\"c\"=-\n".toList

/-- The file without the list. -/
def unbrokenText : Text :=
  "REGEDIT4\r\n[HKCU\\A]\n\"b\"=dword:1\n\"c\"=-\n".toList

/-- A new importer of the file with the list. -/
def importerOfBrokenList : Importer LineReader MemoryStore KeyHandle :=
  Importer.ofFirstBytes 0x52 0x45 (.ofBytes ((Utf8.encode brokenListText).drop 2)) {} {}

/-- The list and its problems may be removed; the line behind it moves up by three. -/
theorem run_without_lines_brokenList :
    importerOfBrokenList.run.2.report.diagnostics =
        [⟨3, .unknownEscape 'q'⟩, ⟨5, .invalidHexData⟩, ⟨7, .valueDeletionUnsupported⟩] ∧
      ∃ n₀ : Importer LineReader MemoryStore KeyHandle,
        Importer.ofSource (.ofBytes (Utf8.encode unbrokenText)) {} {} = .ok n₀ ∧
          n₀.run.1 = importerOfBrokenList.run.1 ∧
          n₀.run.2.store = importerOfBrokenList.run.2.store ∧
          n₀.run.2.report.diagnostics = [⟨4, .valueDeletionUnsupported⟩] := by
  have hall : importerOfBrokenList.run.2.report.diagnostics =
      [⟨3, .unknownEscape 'q'⟩, ⟨5, .invalidHexData⟩, ⟨7, .valueDeletionUnsupported⟩] := by
    decide +kernel
  let m₁ := (importerOfBrokenList.turn 0).2
  let m₂ := (m₁.turn 0).2
  have hheader : importerOfBrokenList.turn 0 = (.proceed 0, m₁) := Prod.ext (by decide +kernel) rfl
  have hkey : m₁.turn 0 = (.proceed 1, m₂) := Prod.ext (by decide +kernel) rfl
  have hvisits : importerOfBrokenList.Visits 0 m₂ 1 := .turn hheader (.turn hkey (.here m₂ 1))
  have hnoted : (m₂.turn 1).2.report.diagnostics =
      m₂.report.diagnostics ++ [⟨3, .unknownEscape 'q'⟩, ⟨5, .invalidHexData⟩] := by
    decide +kernel
  have hm₀ : Importer.ofSource (.ofBytes (Utf8.encode brokenListText)) {} {} =
      .ok importerOfBrokenList := rfl
  have hlines : fileLines (.singleByte .windows1252) (Utf8.encode brokenListText) =
      ["REGEDIT4".toList, "[HKCU\\A]".toList] ++
        ["\"\\q\"=hex:1,\\".toList, " ;".toList, " zz".toList] ++
        ["\"b\"=dword:1".toList, "\"c\"=-".toList] := by decide +kernel
  have hlines' : fileLines (.singleByte .windows1252) (Utf8.encode unbrokenText) =
      ["REGEDIT4".toList, "[HKCU\\A]".toList] ++
        ["\"b\"=dword:1".toList, "\"c\"=-".toList] := by decide +kernel
  obtain ⟨n₀, hmade, houtcome, hstore, hdiagnostics⟩ :=
    run_without_lines (Source.delivers_ofBytes (Utf8.encode brokenListText))
      (Source.delivers_ofBytes (Utf8.encode unbrokenText)) hm₀ hvisits (by decide +kernel) hnoted
      ⟨⟨5, .invalidHexData⟩, by decide, rfl⟩ hlines (by decide +kernel) (by decide +kernel) hlines'
  refine ⟨hall, n₀, hmade, houtcome, hstore, ?_⟩
  rw [hdiagnostics, hall]
  rfl

end RegistryText
