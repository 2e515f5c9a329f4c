import RegistryText.CommandLine
import RegistryText.Proofs.Import.Body
import RegistryText.Proofs.Import.Handles
import RegistryText.Proofs.Import.Removal

/-!
# The first line decides

The outcome of an import is decided before its body is looked at: **the first line of
the file names a dialect, and the dialect has an outcome** (`outcome_of_first_line`).
A header that names none ends the import in front of the body, with nothing asked of the
store and no further line taken; and nothing that is met in a body can change what its
header has decided.

The exit status of the program follows: it is zero for the Windows 3.1 dialect only.
-/

namespace RegistryText

/-- The outcome that a header decides. -/
def headerOutcome (line : Text) : Except ImportError Unit :=
  match Dialect.ofHeader line with
  | .windows31 => .ok ()
  | .version4 => .error (.notImplemented .version4)
  | .version5 => .error (.notImplemented .version5)
  | .unsupported => .error (.unsupportedHeader line.skipBlanks)
  | .invalid => .error (.invalidHeader line.skipBlanks)

/-- The first line of a file, empty if there is none. -/
def firstLine (page : CodePage) (bytes : Bytes) : Text :=
  (fileLines page bytes).head?.getD []

namespace Importer

variable {ρ σ κ : Type} [LineSupply ρ] [RegistryStore σ κ]

/-! ### The header -/

omit [RegistryStore σ κ] in
/-- What the step in front of a header makes of an answer of the lines. -/
theorem headerStep_of_next {m : Importer ρ σ κ} {first? : Option Text} {rest : ρ}
    (hnext : LineSupply.next m.lines = (.ok first?, rest)) :
    m.headerStep = Importer.classify { m with
      lines := rest
      line := first?.getD []
      report := { m.report with
        lines := if first?.isSome then LineSupply.lineNumber rest else m.report.lines } } := by
  cases first? <;> simp [headerStep, fetch, hnext]

theorem outcome_of_isImportable {line : Text} (h : (Dialect.ofHeader line).isImportable = true) :
    outcome (some (Dialect.ofHeader line)) = headerOutcome line := by
  cases hdialect : Dialect.ofHeader line <;> rw [hdialect] at h <;> cases h <;>
    simp [outcome, headerOutcome, hdialect, Dialect.isStructured]

theorem ofHeader_of_not_isImportable {line : Text}
    (h : (Dialect.ofHeader line).isImportable = false) :
    .error (ImportError.ofHeader (Dialect.ofHeader line) line) = headerOutcome line := by
  cases hdialect : Dialect.ofHeader line <;> rw [hdialect] at h <;> cases h <;>
    simp [ImportError.ofHeader, headerOutcome, hdialect]

/-- A header that cannot be imported ends the run at once. -/
theorem run_of_not_isImportable {m : Importer ρ σ κ} (hstate : m.state = .header)
    {first? : Option Text} {rest : ρ} (hnext : LineSupply.next m.lines = (.ok first?, rest))
    (h : (Dialect.ofHeader (first?.getD [])).isImportable = false) :
    m.run.1 = headerOutcome (first?.getD []) ∧ m.run.2.store = m.closeKey.store ∧
      m.run.2.lines = LineSupply.close rest ∧
      m.run.2.report.lines =
        if first?.isSome then LineSupply.lineNumber rest else m.report.lines := by
  have hstep : m.step 0 = m.headerStep := by rw [step, hstate]
  rw [headerStep_of_next hnext, classify_of_not_isImportable h] at hstep
  have hloop := loop_of_failed hstep
  have hreport := report_run m
  have hended := run_snd m
  rw [hloop] at hreport hended
  refine ⟨?_, ?_, ?_, congrArg ImportReport.lines hreport⟩
  · simp only [run, hloop]
    exact ofHeader_of_not_isImportable h
  · rw [store_run, hloop]
    exact store_closeKey_congr rfl rfl
  · rw [hended]
    simp only [finish, lines_closeKey]
    rfl

/-- **Without failing reads the header decides the outcome**, whatever the store answers and
whatever the body is. -/
theorem run_of_header {m : Importer ρ σ κ} (hstate : m.state = .header)
    {first? : Option Text} {rest : ρ} (hnext : LineSupply.next m.lines = (.ok first?, rest))
    (hreads : ∀ e, ¬IsReadFailure ρ e) : m.run.1 = headerOutcome (first?.getD []) := by
  rcases himport : (Dialect.ofHeader (first?.getD [])).isImportable
  · exact (run_of_not_isImportable hstate hnext himport).1
  have hstep : m.step 0 = m.headerStep := by rw [step, hstate]
  rw [headerStep_of_next hnext] at hstep
  obtain ⟨m', hclassify, hdialect, hbody⟩ := classify_of_isImportable (m := { m with
    lines := rest
    line := first?.getD []
    report := { m.report with
      lines := if first?.isSome then LineSupply.lineNumber rest else m.report.lines } }) himport
  have hrest := (run_of_body hbody).2 hreads
  have hloop : m.loop 0 = m'.loop 0 := loop_of_proceed (hstep.trans hclassify)
  calc m.run.1 = m'.run.1 := by simp only [run, hloop]
    _ = outcome m'.dialect := hrest
    _ = headerOutcome (first?.getD []) := by rw [hdialect, outcome_of_isImportable himport]

end Importer

/-! ### Files -/

/-- What a list of lines gives first. -/
theorem ListedLines.next_first (lines : List Text) :
    (LineSupply.next (ListedLines.mk lines 0)).1 = .ok lines.head? ∧
      (LineSupply.next (ListedLines.mk lines 0)).2.given = min 1 lines.length := by
  cases lines with
  | nil => exact ⟨rfl, rfl⟩
  | cons line lines => exact ⟨rfl, by simp [LineSupply.next, ListedLines.next]⟩

/-- A file whose header can be imported has two bytes at least. -/
theorem two_le_of_firstLine {page : CodePage} {bytes : Bytes}
    (h : (Dialect.ofHeader (firstLine page bytes)).isImportable = true) : 2 ≤ bytes.length := by
  have htwo := Importer.two_le_of_isImportable h
  rw [firstLine] at htwo
  cases hfirst : (fileLines page bytes).head? with
  | none => simp [hfirst] at htwo
  | some line =>
      rw [hfirst, Option.getD_some] at htwo
      exact two_le_of_mem_fileLines (List.mem_of_mem_head? hfirst) htwo

/-- What a reader of the lines gives first. -/
theorem LineReader.next_first {r : LineReader} {lines : List Text} (h : r.Lists ⟨lines, 0⟩) :
    ∃ rest, LineSupply.next r = (.ok lines.head?, rest) ∧
      LineSupply.lineNumber rest = min 1 lines.length := by
  obtain ⟨rest', hnext, hrest⟩ := LineReader.alike_listed.next h
  obtain ⟨hfirst, hgiven⟩ := ListedLines.next_first lines
  rw [hnext] at hfirst hgiven
  refine ⟨(LineSupply.next r).2, Prod.ext hfirst rfl, ?_⟩
  rw [LineReader.alike_listed.lineNumber hrest]
  exact hgiven

namespace Importer

variable {σ κ : Type} [RegistryStore σ κ] {source : Source} {bytes : Bytes} {store : σ}
  {options : ImportOptions} {m : Importer LineReader σ κ}

/-- The first line of a file decides the outcome of its import. -/
theorem outcome_of_delivers (h : source.Delivers bytes)
    (hm : ofSource source store options = .ok m) :
    m.run.1 = headerOutcome (firstLine options.page bytes) := by
  obtain ⟨-, -, houtcome, -⟩ := beside_of_delivers h hm
  rw [← houtcome]
  exact run_of_header rfl (Prod.ext (ListedLines.next_first _).1 rfl) not_isReadFailure_listed

/-- If it names no dialect that is imported, the store stays as it is, and no other line is
taken. -/
theorem untouched_of_delivers (h : source.Delivers bytes)
    (hm : ofSource source store options = .ok m)
    (hheader : (Dialect.ofHeader (firstLine options.page bytes)).isImportable = false) :
    m.run.2.store = store ∧
      m.run.2.lines.lineNumber = min 1 (fileLines options.page bytes).length ∧
      m.run.2.report.lines = min 1 (fileLines options.page bytes).length := by
  obtain ⟨hlists, hstate, hkey, -, hstore, hreport⟩ := listed_of_delivers h hm
  obtain ⟨rest, hnext, hnumber⟩ := LineReader.next_first hlists
  obtain ⟨-, hkept, hclosed, hlines⟩ := run_of_not_isImportable hstate hnext hheader
  refine ⟨?_, ?_, ?_⟩
  · rw [hkept, closeKey, hkey, hstore]
  · rw [hclosed]
    exact hnumber
  · rw [hlines, hreport, hnumber]
    cases fileLines options.page bytes <;> rfl

/-- An import with a record of its calls is the same import. -/
theorem exists_recorded (hm : ofSource source store options = .ok m) :
    ∃ recorded : Importer LineReader (RecordingStore σ κ) κ,
      ofSource source ⟨store, []⟩ options = .ok recorded ∧
        recorded.run.1 = m.run.1 ∧ recorded.run.2.store.behind = m.run.2.store := by
  obtain ⟨recorded, hrecorded, rfl⟩ := exists_recording hm
  rw [run_mapStore RecordingStore.morphism_behind]
  exact ⟨recorded, hrecorded, rfl, rfl⟩

end Importer

/-! ### The program -/

namespace CommandLine

/-- The exit status tells whether the import succeeded. -/
theorem Arguments.exitStatus_respond (a : Arguments) {openFile : Text → Option Source}
    {source : Source} (hfile : openFile a.file = some source) :
    (a.respond openFile).exitStatus =
      if (importSource source ({} : MemoryStore) { page := a.page }).1.isOk then 0 else 1 := by
  simp only [respond, importFile, hfile]
  cases (importSource source ({} : MemoryStore) { page := a.page }).1 <;> rfl

/-- The outcome of a header is a success for the Windows 3.1 dialect only. -/
theorem isOk_headerOutcome (line : Text) :
    (headerOutcome line).isOk = decide (Dialect.ofHeader line = .windows31) := by
  unfold headerOutcome
  cases Dialect.ofHeader line <;> rfl

/-- An import of a source succeeds as its run does. -/
theorem isOk_importSource {source : Source} {store : MemoryStore} {options : ImportOptions}
    {m : Importer LineReader MemoryStore KeyHandle}
    (hm : Importer.ofSource source store options = .ok m) :
    (importSource source store options).1.isOk = m.run.1.isOk := by
  simp only [importSource, hm]
  rcases m.run with ⟨_ | _, m'⟩ <;> rfl

/-- A file that is too short for an import has no header. -/
theorem ofHeader_of_short {page : CodePage} {bytes : Bytes} (hshort : bytes.length < 2) :
    Dialect.ofHeader (firstLine page bytes) ≠ .windows31 := by
  intro hheader
  have hlong : 2 ≤ bytes.length := two_le_of_firstLine (by rw [hheader]; rfl)
  omega

/-- The exit status of an import of a readable file. -/
theorem exitStatus_of_delivers {source : Source} {bytes : Bytes} (h : source.Delivers bytes)
    {a : Arguments} {openFile : Text → Option Source} (hfile : openFile a.file = some source) :
    (a.respond openFile).exitStatus =
      if Dialect.ofHeader (firstLine a.page bytes) = .windows31 then 0 else 1 := by
  rw [a.exitStatus_respond hfile]
  by_cases hshort : bytes.length < 2
  · rw [if_neg (ofHeader_of_short hshort), importSource, Importer.ofSource_of_short h hshort]
    rfl
  · obtain ⟨m, hm⟩ := Importer.exists_of_delivers (κ := KeyHandle) h (Nat.le_of_not_lt hshort)
      ({} : MemoryStore) { page := a.page }
    rw [isOk_importSource hm, Importer.outcome_of_delivers h hm, isOk_headerOutcome]
    simp only [decide_eq_true_eq]

end CommandLine

/-- **The outcome is decided by the first line alone.**  Every source of two bytes at least
has an importer, whatever the store denies or refuses, and its run has the outcome of the
first line, whatever the other lines are.  A first line that names no dialect that is imported
leaves the store without a call, and no other line is taken.  The program ends with the exit
status 0 if the first line of its file is the header of the Windows 3.1 dialect, and with 1
otherwise. -/
theorem outcome_of_first_line {source : Source} {bytes : Bytes} (h : source.Delivers bytes) :
    (∀ {σ κ : Type} [RegistryStore σ κ] (store : σ) (options : ImportOptions),
      2 ≤ bytes.length → ∃ m : Importer LineReader σ κ,
        Importer.ofSource source store options = .ok m ∧
        m.run.1 = headerOutcome (firstLine options.page bytes) ∧
        ((Dialect.ofHeader (firstLine options.page bytes)).isImportable = false →
          m.run.2.store = store ∧
          m.run.2.lines.lineNumber = min 1 (fileLines options.page bytes).length ∧
          m.run.2.report.lines = min 1 (fileLines options.page bytes).length ∧
          ∃ recorded : Importer LineReader (RecordingStore σ κ) κ,
            Importer.ofSource source ⟨store, []⟩ options = .ok recorded ∧
            recorded.run.1 = m.run.1 ∧ recorded.run.2.store.calls = [])) ∧
    ∀ (openFile : Text → Option Source) (others : List OtherPage) (arguments : List Text)
      (a : CommandLine.Arguments),
      CommandLine.Request.ofArguments others arguments = .importFile a →
      openFile a.file = some source →
      ((CommandLine.Request.ofArguments others arguments).respond openFile).exitStatus =
        if Dialect.ofHeader (firstLine a.page bytes) = .windows31 then 0 else 1 := by
  refine ⟨?_, ?_⟩
  · intro σ κ _ store options hlong
    obtain ⟨m, hm⟩ := Importer.exists_of_delivers (κ := κ) h hlong store options
    refine ⟨m, hm, Importer.outcome_of_delivers h hm, fun hheader => ?_⟩
    obtain ⟨hstore, hnumber, hlines⟩ := Importer.untouched_of_delivers h hm hheader
    obtain ⟨recorded, hrecorded, houtcome, -⟩ := Importer.exists_recorded hm
    obtain ⟨hcalls, -, -⟩ := Importer.untouched_of_delivers h hrecorded hheader
    refine ⟨hstore, hnumber, hlines, recorded, hrecorded, houtcome, ?_⟩
    rw [hcalls]
    rfl
  · intro openFile others arguments a harguments hfile
    rw [harguments]
    exact CommandLine.exitStatus_of_delivers h hfile

/-- A file whose header only begins like a known one, in front of a value. -/
def unsupportedText : Text :=
  "REGEDIT9\r\n[HKCU\\A]\n\"a\"=hex:zz\n".toList

/-- Its import takes one line and leaves the store alone, and the program ends with the exit
status 1. -/
theorem outcome_of_unsupportedText :
    (∃ m : Importer LineReader MemoryStore KeyHandle,
      Importer.ofSource (.ofBytes (Utf8.encode unsupportedText)) {} {} = .ok m ∧
        m.run.1 = .error (.unsupportedHeader "REGEDIT9".toList) ∧ m.run.2.store = {} ∧
        m.run.2.lines.lineNumber = 1) ∧
      ((CommandLine.Request.ofArguments [] ["a.reg".toList]).respond fun _ =>
        some (.ofBytes (Utf8.encode unsupportedText))).exitStatus = 1 := by
  obtain ⟨hrun, hprogram⟩ :=
    outcome_of_first_line (Source.delivers_ofBytes (Utf8.encode unsupportedText))
  obtain ⟨m, hm, houtcome, huntouched⟩ := hrun (κ := KeyHandle) ({} : MemoryStore) {} (by decide)
  obtain ⟨hstore, hnumber, -⟩ := huntouched (by decide +kernel)
  have hfirst : firstLine (.singleByte .windows1252) (Utf8.encode unsupportedText) =
      "REGEDIT9".toList := by decide +kernel
  have hcount : min 1 (fileLines (.singleByte .windows1252) (Utf8.encode unsupportedText)).length =
      1 := by decide +kernel
  have hstatus := hprogram (fun _ => some (.ofBytes (Utf8.encode unsupportedText)))
    [] ["a.reg".toList] ⟨"a.reg".toList, .singleByte .windows1252, false, false⟩ rfl rfl
  rw [if_neg (by decide +kernel)] at hstatus
  exact ⟨⟨m, hm, houtcome.trans (congrArg headerOutcome hfirst), hstore, hnumber.trans hcount⟩,
    hstatus⟩

end RegistryText
