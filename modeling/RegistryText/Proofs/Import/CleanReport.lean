import RegistryText.Proofs.Import.ByteDependence
import RegistryText.Proofs.Import.Diagnostics
import RegistryText.Proofs.Import.Invariant
import RegistryText.Proofs.Import.ValueLine

/-!
# What a clean report means

A report is clean if there was no problem.  Then every key line has opened its key,
and every value line was a value line in the sense of the grammar; while a key was
open, its value has been set, and the store has accepted it
(`lines_of_isClean`).

**Values in front of the first key line are lost without a problem.**  They are the
only ones: when a clean import holds no key, it has not called its store yet.
-/

namespace RegistryText

namespace Reading

/-- What follows a bracket states a key, up to the last closing bracket, or a
problem. -/
theorem ofBracket_cases (rest : Text) :
    (∃ path behind, rest = path ++ ']' :: behind ∧ ']' ∉ behind ∧
      (ofBracket rest).statement = .key path) ∨
    ∃ kind, (ofBracket rest).statement = .fault kind := by
  unfold ofBracket
  split
  · exact Or.inr ⟨_, rfl⟩
  next name hname =>
    split
    · exact Or.inr ⟨_, rfl⟩
    · unfold Importer.bracketed? at hname
      split at hname
      · cases hname
      · obtain ⟨behind, hrest, hlast⟩ := Text.eq_of_beforeLast? hname
        exact Or.inl ⟨name, behind, hrest, hlast, rfl⟩

end Reading

/-- A reader that lists some lines: none of its reads fails. -/
def LineReader.IsListed (r : LineReader) : Prop :=
  ∃ lines, r.Lists lines

theorem LineReader.IsListed.next {r : LineReader} (h : r.IsListed) :
    (LineSupply.next r).2.IsListed ∧ ∀ message, (LineSupply.next r).1 ≠ .error message := by
  obtain ⟨⟨left, given⟩, hlists⟩ := h
  obtain ⟨rest, hnext, hrest⟩ := LineReader.alike_listed.next hlists
  refine ⟨⟨rest, hrest⟩, fun message hfailed => ?_⟩
  rw [hfailed] at hnext
  cases left <;> cases hnext

namespace Importer

variable {ρ σ κ : Type} [LineSupply ρ]

/-- No list ends with a failing read if no read fails. -/
theorem gather_ne_failed (Readable : ρ → Prop)
    (hreadable : ∀ lines, Readable lines → Readable (LineSupply.next lines).2 ∧
      ∀ message, (LineSupply.next lines).1 ≠ .error message)
    {m : Importer ρ σ κ} (h : Readable m.lines) (bytes : Bytes) (e : ImportError) :
    (m.gather bytes).1 ≠ .failed e := by
  fun_induction gather m bytes with
  | case1 m bytes e' m' hfetch =>
      have hnext := (hreadable m.lines h).2
      unfold fetch at hfetch
      split at hfetch <;> cases hfetch
      next message rest heq => exact absurd (congrArg Prod.fst heq) (hnext message)
  | case2 m bytes m' hfetch | case4 m bytes m' hfetch | case5 m bytes m' hfetch =>
      intro hfailed
      cases hfailed
  | case3 m bytes m' hfetch hless hcomment ih
  | case6 m bytes m' hfetch hless hlist more hread ih =>
      exact ih (lines_fetch hfetch ▸ (hreadable m.lines h).1)

theorem fetch_of_taken {m : Importer ρ σ κ} (h : m.fetch.1.toOption = some true) :
    m.fetch = (.ok true, m.fetch.2) := by
  rcases hfetch : m.fetch with ⟨e | taken, m'⟩ <;> rw [hfetch] at h <;> cases h
  rfl

variable [RegistryStore σ κ] {m : Importer ρ σ κ}

/-! ### Statements without a problem -/

/-- Without a problem nothing is noted in front of a statement. -/
theorem obey_of_clean (hcount : LineSupply.Counts ρ) {r : Reading}
    (hclean : (m.obey r).2.report.diagnostics = []) : m.obey r = m.carryOut r.statement := by
  obtain ⟨-, new, hnew, -⟩ :=
    Onward.carryOut hcount (m.note (r.unknown.map .unknownEscape)) r.statement
  have hnoted : (m.note (r.unknown.map .unknownEscape)).report.diagnostics = [] :=
    (List.append_eq_nil_iff.mp (hnew.symm.trans hclean)).1
  have hunknown : r.unknown = [] := by
    simpa [note] using (List.append_eq_nil_iff.mp hnoted).2
  rw [obey, hunknown, List.map_nil, note_nil]

/-- Without a problem the key of a path is opened. -/
theorem openKey_of_clean {path : Text} (hclean : (m.openKey path).2.report.diagnostics = []) :
    ∃ root below key,
      RegistryStore.resolveRoot (κ := κ) m.closeKey.store path = some (root, below) ∧
      (RegistryStore.openKey m.closeKey.store root below).1 = .ok key ∧
      (m.openKey path).2.key = some key ∧
      (m.openKey path).2.store =
        (RegistryStore.openKey (κ := κ) m.closeKey.store root below).2 := by
  revert hclean
  simp only [openKey, requestKey]
  cases RegistryStore.resolveRoot (κ := κ) m.closeKey.store path with
  | none => simp [note]
  | some split =>
      obtain ⟨root, below⟩ := split
      dsimp only
      rcases hopen : RegistryStore.openKey (κ := κ) m.closeKey.store root below
        with ⟨cause | key, store⟩
      · simp [note]
      · exact fun _ => ⟨root, below, key, rfl, congrArg Prod.fst hopen, rfl,
          (congrArg Prod.snd hopen).symm⟩

/-- Without a problem the store accepts a write. -/
theorem setValue_of_clean {key : κ} (hkey : m.key = some key) {w : KeyWrite}
    (hclean : (m.write w).report.diagnostics = []) :
    (RegistryStore.setValue m.store key w.name w.type w.data).1 = .ok () := by
  revert hclean
  rw [write, hkey]
  dsimp only
  rcases RegistryStore.setValue m.store key w.name w.type w.data with ⟨cause | _, store⟩
  · simp [note]
  · exact fun _ => rfl

/-- Without a problem an assignment sets a value, behind the lines that continue it. -/
theorem sets_of_clean {statement : Statement} (hassigns : statement.IsAssignment)
    (hread : ∀ bytes e, (m.gather bytes).1 ≠ .failed e)
    (hclean : (m.carryOut statement).2.report.diagnostics = []) :
    ∃ lines rest w, LineSupply.Gives m.lines lines rest ∧ statement.Sets lines w := by
  cases statement with
  | nothing | key path | entry path w => exact hassigns.elim
  | value w => exact ⟨[], m.lines, w, .nothing m.lines, rfl, rfl⟩
  | fault kind => simp [carryOut, note] at hclean
  | list name type bytes =>
      rw [carryOut] at hclean
      rcases hgather : m.gather bytes with ⟨ending, m'⟩
      rw [hgather] at hclean
      cases ending with
      | complete all =>
          obtain ⟨lines, more, hgives, hmore, -⟩ := gives_of_gather (congrArg Prod.fst hgather)
          exact ⟨lines, _, ⟨name, type, bytes ++ more⟩, hgives, more, hmore, rfl⟩
      | malformed | missing => simp [note] at hclean
      | failed e => exact absurd (congrArg Prod.fst hgather) (hread bytes e)

/-- Without a problem and a key, the store has not been called. -/
theorem invariant_uncalled : Invariant fun m : Importer ρ (RecordingStore σ κ) κ =>
    m.report.diagnostics = [] → m.key = none → m.store.calls = [] where
  enter _ h := h
  settled h hsame := by
    obtain ⟨-, hstore, hkey, -, -, hreport⟩ := anew_eq_iff.mp hsame
    rwa [hstore, hkey, hreport]
  named _ h := h
  note {m} kinds h hclean hkey := h (List.append_eq_nil_iff.mp hclean).1 hkey
  openKey path h hclean hkey := by
    obtain ⟨root, below, key, -, -, hopened, -⟩ := openKey_of_clean hclean
    rw [hkey] at hopened
    cases hopened
  write {m} w h := by
    cases hkey : m.key with
    | none => rwa [write, hkey]
    | some key =>
        intro hclean hnone
        rw [key_write, hkey] at hnone
        cases hnone
  fetch {m} h := by
    rcases hfetch : m.fetch with ⟨answer, m'⟩
    obtain ⟨-, -, -, -, hkey, hstore⟩ := kept_of_fetch hfetch
    rwa [diagnostics_fetch hfetch, hkey, hstore]

/-- Without a problem a key that is opened is a call of the store that succeeds. -/
theorem calls_of_clean_openKey {m : Importer ρ (RecordingStore σ κ) κ} {path : Text}
    (hclean : (m.openKey path).2.report.diagnostics = []) :
    ∃ root below key,
      RegistryStore.resolveRoot (κ := κ) m.closeKey.store path = some (root, below) ∧
      (m.openKey path).2.key = some key ∧
      (m.openKey path).2.store.calls = m.store.calls ++ (m.key.map StoreCall.closeKey).toList ++
        [.openKey root below (.ok key)] := by
  obtain ⟨root, below, key, hroot, hanswer, hkey, hstore⟩ := openKey_of_clean hclean
  rw [RecordingStore.openKey_keep] at hanswer hstore
  dsimp only at hanswer
  refine ⟨root, below, key, hroot, hkey, ?_⟩
  rw [hstore, RecordingStore.calls_keep, calls_closeKey, hanswer]

/-- A line that begins with a bracket and has no problem opens a key. -/
theorem obey_bracket_of_clean (hcount : LineSupply.Counts ρ) {line : Text}
    (hfirst : line.skipBlanks.head? = some '[')
    (hclean : (m.obey (.ofLine line)).2.report.diagnostics = []) :
    ∃ path behind, line.skipBlanks = '[' :: (path ++ ']' :: behind) ∧ ']' ∉ behind ∧
      m.obey (.ofLine line) = (.proceed 0, (m.openKey path).2) := by
  have hobey := obey_of_clean hcount hclean
  rw [hobey] at hclean ⊢
  obtain ⟨rest, hline⟩ := List.head?_eq_some_iff.mp hfirst
  have hread : Reading.ofLine line = .ofBracket rest := by
    rw [Reading.ofLine, hline]
    rfl
  rw [hread] at hclean ⊢
  rcases Reading.ofBracket_cases rest with ⟨path, behind, hrest, hlast, hstates⟩ | ⟨kind, hstates⟩
  · rw [hstates]
    exact ⟨path, behind, by rw [hline, hrest], hlast, rfl⟩
  · rw [hstates] at hclean
    simp [carryOut, note] at hclean

/-- A line that begins with the name of a value and has no problem sets a value. -/
theorem obey_valueLine_of_clean (hcount : LineSupply.Counts ρ)
    (hread : ∀ bytes e, (m.gather bytes).1 ≠ .failed e) {line : Text}
    (hfirst : line.skipBlanks.head? = some '@' ∨ line.skipBlanks.head? = some '"')
    (hclean : (m.obey (.ofLine line)).2.report.diagnostics = []) :
    ∃ lines rest w, LineSupply.Gives m.lines lines rest ∧ ValueLine line lines w ∧
      ∃ n : Importer ρ σ κ, m.obey (.ofLine line) = (.proceed 0, n.write w) ∧ n.lines = rest ∧
        n.key = m.key ∧ n.store = m.store := by
  have hassigns : (Reading.ofLine line).statement.IsAssignment := by
    rcases hfirst with hfirst | hfirst <;> obtain ⟨rest, hline⟩ := List.head?_eq_some_iff.mp hfirst
    · rw [Reading.ofLine, hline]
      exact Reading.isAssignment_ofAssignment none rest
    · rw [Reading.ofLine, hline]
      exact Reading.isAssignment_ofQuoted rest
  have hcarried := hclean
  rw [obey_of_clean hcount hclean] at hcarried
  obtain ⟨lines, rest, w, hgives, hsets⟩ := sets_of_clean hassigns hread hcarried
  obtain ⟨n, hobey, hrest, -, hkey, hstore⟩ := obey_of_sets hgives hsets
  exact ⟨lines, rest, w, hgives, Reading.sets_ofLine_iff.mp hsets, n, hobey, hrest, hkey, hstore⟩

/-- What holds at each moment of an import of a file that ends without a problem. -/
theorem clean_moment {source : Source} {bytes : Bytes} (h : source.Delivers bytes) {store : σ}
    {options : ImportOptions} {m₀ m : Importer LineReader (RecordingStore σ κ) κ}
    (hm₀ : ofSource source ⟨store, []⟩ options = .ok m₀) (hclean : m₀.run.2.report.isClean = true)
    {place : Nat} (hvisits : m₀.Visits 0 m place) :
    m.Between ∧ (m.turn place).2.report.diagnostics = [] ∧
      (m.key = none → m.store.calls = []) ∧ m.lines.IsListed := by
  obtain ⟨hlists, hheader, hkey, -, hstore, hreport⟩ := listed_of_delivers h hm₀
  obtain ⟨hm, hbetween⟩ := (invariant_lines LineReader.IsListed fun _ h => h.next.1).visits
    ⟨_, hlists⟩ (Or.inl hheader) hvisits
  obtain ⟨huncalled, -⟩ := invariant_uncalled.visits (fun _ _ => hstore ▸ rfl) (Or.inl hheader)
    hvisits
  have hloop : (m.loop place).2.report.diagnostics = [] := by
    rw [← hvisits.loop_eq, ← report_run]
    exact List.isEmpty_iff.mp hclean
  have hbefore : m.report.diagnostics = [] := by
    obtain ⟨-, new, hnew, -⟩ := noted_loop LineReader.counts hbetween place
    exact (List.append_eq_nil_iff.mp (hnew.symm.trans hloop)).1
  exact ⟨hbetween, clean_turn LineReader.counts hbetween hloop, huncalled hbefore, hm⟩

end Importer

/-- **A clean report means that nothing was skipped behind the first key line.**  When
the import of a file ends without a problem, every line of its body that begins with a
bracket has opened the key that it names.  Every line that begins with the sign of the
default value or a quote is a value line; if a key was open, its value has been set and
the store has accepted it, and if none was, no line before it has opened one. -/
theorem lines_of_isClean {σ κ : Type} [RegistryStore σ κ] {source : Source} {bytes : Bytes}
    (h : source.Delivers bytes) {store : σ} {options : ImportOptions}
    {m₀ m m' : Importer LineReader (RecordingStore σ κ) κ}
    (hm₀ : Importer.ofSource source ⟨store, []⟩ options = .ok m₀)
    (hclean : m₀.run.2.report.isClean = true) {place : Nat} (hvisits : m₀.Visits 0 m place)
    (hstate : m.state = .lineStart) (hfetch : m.fetch = (.ok true, m')) :
    (m'.line.skipBlanks.head? = some '[' → ∃ path behind root below key,
      m'.line.skipBlanks = '[' :: (path ++ ']' :: behind) ∧ ']' ∉ behind ∧
      RegistryStore.resolveRoot (κ := κ) m.closeKey.store path = some (root, below) ∧
      (m.turn place).2.key = some key ∧
      (m.turn place).2.store.calls = m.store.calls ++ (m.key.map StoreCall.closeKey).toList ++
        [.openKey root below (.ok key)]) ∧
    (m'.line.skipBlanks.head? = some '@' ∨ m'.line.skipBlanks.head? = some '"' →
      ∃ lines rest w, LineSupply.Gives m'.lines lines rest ∧ ValueLine m'.line lines w ∧
        (m.turn place).2.lines = rest ∧
        (∀ key, m.key = some key → (m.turn place).2.store.calls =
          m.store.calls ++ [.setValue key w.name w.type w.data (.ok ())]) ∧
        (m.key = none → (m.turn place).2.store = m.store ∧ m.store.calls = [])) := by
  obtain ⟨hbetween, hcleanTurn, huncalled, hlisted⟩ :=
    Importer.clean_moment h hm₀ hclean hvisits
  have hfront : m.front = .lineStart := (hbetween.eq_front hstate).symm.trans hstate
  obtain ⟨-, -, -, -, hkey, hstore⟩ := Importer.kept_of_fetch hfetch
  have hturn : Importer.settled (m.turn place) = _ := Importer.turn_line hstate hfront hfetch
  obtain ⟨-, hlinesTurn, hstoreTurn, hkeyTurn, -, -, hreport⟩ :=
    Importer.settled_eq_iff.mp hturn
  have hobeyed : ((m'.anew .lineStart).obey (.ofLine m'.line)).2.report.diagnostics = [] := by
    rw [← hreport]
    exact hcleanTurn
  constructor
  · intro hfirst
    obtain ⟨path, behind, hline, hlast, hobey⟩ :=
      Importer.obey_bracket_of_clean LineReader.counts hfirst hobeyed
    rw [hobey] at hobeyed hstoreTurn hkeyTurn
    obtain ⟨root, below, key, hroot, hopened, hcalls⟩ := Importer.calls_of_clean_openKey hobeyed
    have hclosed : (m'.anew .lineStart).closeKey.store = m.closeKey.store :=
      Importer.store_closeKey_congr hkey hstore
    refine ⟨path, behind, root, below, key, hline, hlast, hclosed ▸ hroot,
      hkeyTurn.trans hopened, ?_⟩
    rw [hstoreTurn, hcalls, ← hkey, ← hstore]
    rfl
  · intro hfirst
    have hread : ∀ bytes e, ((m'.anew .lineStart).gather bytes).1 ≠ .failed e := by
      refine Importer.gather_ne_failed LineReader.IsListed (fun _ h => h.next) ?_
      rw [Importer.anew, Importer.lines_fetch hfetch]
      exact hlisted.next.1
    obtain ⟨lines, rest, w, hgives, hline, n, hobey, hrest, hkeyn, hstoren⟩ :=
      Importer.obey_valueLine_of_clean LineReader.counts hread hfirst hobeyed
    rw [hobey] at hobeyed hstoreTurn hlinesTurn
    have hkeynm : n.key = m.key := hkeyn.trans hkey
    have hstorenm : n.store = m.store := hstoren.trans hstore
    refine ⟨lines, rest, w, hgives, hline, hlinesTurn.trans ((n.lines_write w).trans hrest), ?_, ?_⟩
    · intro key hopen
      have haccepted := Importer.setValue_of_clean (hkeynm.trans hopen) hobeyed
      rw [RecordingStore.setValue_keep] at haccepted
      rw [hstoreTurn, Importer.calls_write (hkeynm.trans hopen), hstorenm]
      rw [hstorenm] at haccepted
      rw [RecordingStore.setCall, haccepted]
    · intro hnone
      refine ⟨?_, huncalled hnone⟩
      rw [hstoreTurn, Importer.write, hkeynm.trans hnone]
      exact hstorenm

/-- A file with a value in front of its first key, and a list of bytes behind it. -/
def earlyValueText : Text :=
  "REGEDIT4\r\n\"early\"=dword:1\r\n[HKCU\\A]\n @ = hex(7):1,\\\n ;\n2".toList

/-- A new importer of that file. -/
def importerOfEarlyValue : Importer LineReader (RecordingStore MemoryStore KeyHandle) KeyHandle :=
  Importer.ofFirstBytes 0x52 0x45 (.ofBytes ((Utf8.encode earlyValueText).drop 2)) ⟨{}, []⟩ {}

/-- The list of bytes is set in a clean import, with the lines that continue it. -/
theorem lines_of_isClean_early :
    ∃ (m m' : Importer LineReader (RecordingStore MemoryStore KeyHandle) KeyHandle) (place : Nat),
      Importer.ofSource (.ofBytes (Utf8.encode earlyValueText)) ⟨{}, []⟩ {} =
          .ok importerOfEarlyValue ∧
        importerOfEarlyValue.run.2.report.isClean = true ∧
        importerOfEarlyValue.Visits 0 m place ∧ m.fetch = (.ok true, m') ∧
        m'.line = " @ = hex(7):1,\\".toList ∧
        ∃ lines rest w key, LineSupply.Gives m'.lines lines rest ∧ ValueLine m'.line lines w ∧
          (m.turn place).2.lines = rest ∧ m.key = some key ∧
          (m.turn place).2.store.calls =
            m.store.calls ++ [.setValue key w.name w.type w.data (.ok ())] := by
  have hclean : importerOfEarlyValue.run.2.report.isClean = true := by decide +kernel
  let m₁ := (importerOfEarlyValue.turn 0).2
  let m₂ := (m₁.turn 0).2
  let m₃ := (m₂.turn 14).2
  have hheader : importerOfEarlyValue.turn 0 = (.proceed 0, m₁) :=
    Prod.ext (by decide +kernel) rfl
  have hvalue : m₁.turn 0 = (.proceed 14, m₂) := Prod.ext (by decide +kernel) rfl
  have hkey : m₂.turn 14 = (.proceed 1, m₃) := Prod.ext (by decide +kernel) rfl
  have hvisits : importerOfEarlyValue.Visits 0 m₃ 1 :=
    .turn hheader (.turn hvalue (.turn hkey (.here m₃ 1)))
  have hstate : m₃.state = .lineStart := by decide +kernel
  have hfetch : m₃.fetch = (.ok true, m₃.fetch.2) := Importer.fetch_of_taken (by decide +kernel)
  have hm₀ : Importer.ofSource (.ofBytes (Utf8.encode earlyValueText)) ⟨{}, []⟩ {} =
      .ok importerOfEarlyValue := rfl
  obtain ⟨-, hlines⟩ :=
    lines_of_isClean (Source.delivers_ofBytes _) hm₀ hclean hvisits hstate hfetch
  have hfirst : m₃.fetch.2.line.skipBlanks.head? = some '@' := by decide +kernel
  have hopen : m₃.key = some ⟨0, "hkey_current_user\\a".toList, "HKEY_CURRENT_USER\\A".toList⟩ := by
    decide +kernel
  obtain ⟨lines, rest, w, hgives, hline, hrest, hset, -⟩ := hlines (Or.inl hfirst)
  exact ⟨m₃, m₃.fetch.2, 1, rfl, hclean, hvisits, hfetch, by decide +kernel, lines, rest, w, _,
    hgives, hline, hrest, hopen, hset _ hopen⟩

/-- A new importer of a file with a value and no key. -/
def importerOfKeyless : Importer LineReader (RecordingStore MemoryStore KeyHandle) KeyHandle :=
  Importer.ofFirstBytes 0x52 0x45
    (.ofBytes ((Utf8.encode "REGEDIT4\n\"a\"=\"b\"\n".toList).drop 2)) ⟨{}, []⟩ {}

/-- **A value in front of the first key line is lost, and the report is clean**: the store
is never called. -/
theorem isClean_of_keyless :
    Importer.ofSource (.ofBytes (Utf8.encode "REGEDIT4\n\"a\"=\"b\"\n".toList)) ⟨{}, []⟩ {} =
        .ok importerOfKeyless ∧
      importerOfKeyless.run.2.report.isClean = true ∧
      importerOfKeyless.run.2.store.calls = [] ∧
      ∃ (m m' : Importer LineReader (RecordingStore MemoryStore KeyHandle) KeyHandle) (place : Nat),
        importerOfKeyless.Visits 0 m place ∧ m.state = .lineStart ∧ m.fetch = (.ok true, m') ∧
          ValueLine m'.line [] ⟨some ['a'], .string, stringData ['b']⟩ := by
  let m := (importerOfKeyless.turn 0).2
  have hheader : importerOfKeyless.turn 0 = (.proceed 0, m) := Prod.ext (by decide +kernel) rfl
  have hfetch : m.fetch = (.ok true, m.fetch.2) := Importer.fetch_of_taken (by decide +kernel)
  have hread : (Reading.ofLine m.fetch.2.line).statement =
      .value ⟨some ['a'], .string, stringData ['b']⟩ := by decide +kernel
  refine ⟨rfl, by decide +kernel, List.isEmpty_iff.mp (by decide +kernel), m, m.fetch.2, 0,
    .turn hheader (.here m 0), by decide +kernel, hfetch, Reading.sets_ofLine_iff.mp ?_⟩
  rw [hread]
  exact ⟨rfl, rfl⟩

end RegistryText
