import RegistryText.Proofs.Import.Diagnostics
import RegistryText.Proofs.Import.ReadError

/-!
# Imports of sources that break

A source that breaks behind a list of bytes gives the import the complete lines of these
bytes.  **The import then fails with the message of the read and leaves a clean prefix**
(`run_of_breaks`): it has done what an import of the complete lines does, but for a value
that is not finished, and its log is the beginning of the log of every file that goes on
where the source has broken.  No handle stays open and the reader is closed.
-/

namespace RegistryText

/-- The calls made at a moment are the first ones of the run. -/
theorem Importer.Visits.prefix_calls {ρ σ κ : Type} [LineSupply ρ] [RegistryStore σ κ]
    {m m' : Importer ρ (RecordingStore σ κ) κ} {place : Nat}
    (h : m.Visits 0 m' place) : m'.store.calls <+: m.run.2.store.calls := by
  have hloop : m'.store.calls <+: (m'.loop place).2.store.calls :=
    loop_keeps (keptByCalls_extends m'.store.calls) (List.prefix_refl _) place
  rw [store_run, h.loop_eq]
  exact (closeKey_keeps (keptByCalls_extends m'.store.calls) hloop).1

namespace Importer

section Source

variable {σ κ : Type}

/-- An importer of a source that breaks behind two bytes at least is made from these two. -/
theorem ofSource_of_breaks {source : Source} {message : Text} {first second : UInt8}
    {bytes : Bytes} (h : source.Breaks message (first :: second :: bytes)) (store : σ)
    (options : ImportOptions) :
    ∃ rest : Source, rest.Breaks message bytes ∧ ofSource (κ := κ) source store options =
      .ok (ofFirstBytes first second rest store options) := by
  refine ofSource_of_reads (P := fun source bytes => source.Breaks message bytes) ?_ h store options
  intro source bytes count h hbytes hcount
  rcases h.read hcount with ⟨hnil, -⟩ | hgiven
  · exact absurd hnil hbytes
  · exact hgiven

/-- The reader of such an importer gives the complete lines of the bytes. -/
theorem givesBefore_ofFirstBytes (first second : UInt8) {rest : Source} {message : Text}
    {bytes : Bytes} (h : rest.Breaks message bytes) (store : σ) (options : ImportOptions) :
    (ofFirstBytes (κ := κ) first second rest store options).lines.GivesBefore message
      rest.failures (completeFileLines options.page (first :: second :: bytes)) := by
  cases hencoding : FileEncoding.detect first second with
  | narrow =>
      simp only [ofFirstBytes, completeFileLines, textBytes, fileEncoding, hencoding]
      exact ⟨rfl, _, ⟨rfl, rest, bytes, rfl, h, LineReader.holds_append_ofSource _ _ _ _ _ _⟩, rfl⟩
  | wide =>
      simp only [ofFirstBytes, completeFileLines, textBytes, fileEncoding, hencoding]
      exact ⟨rfl, _, ⟨rfl, rest, bytes, rfl, h, LineReader.holds_ofSource _ _ _ _ _⟩, rfl⟩

variable [RegistryStore σ κ]

/-- A run lets go of its source. -/
theorem isClosed_run (m : Importer LineReader σ κ) : m.run.2.lines.isClosed = true := by
  simp only [run]
  split <;> rfl

/-- A run leaves the store of an import of the lines of the file. -/
theorem store_run_of_delivers {source : Source} {bytes : Bytes} (h : source.Delivers bytes)
    (hlength : 2 ≤ bytes.length) {store : σ} {options : ImportOptions}
    {m : Importer LineReader σ κ} (hm : ofSource source store options = .ok m) :
    m.run.2.store = (ofLines (fileEncoding bytes) (fileLines options.page bytes) store :
      Importer ListedLines σ κ).run.2.store :=
  congrArg ImportView.store (view_run_of_delivers h hlength hm)

end Source

/-- An import whose first line is no header makes no call. -/
theorem run_of_invalid_header {ρ σ κ : Type} [LineSupply ρ] [RegistryStore σ κ] {message : Text}
    {Open : ρ → Prop} {G : ρ → List Text → Prop} (hG : LineSupply.FailsBehind message Open G)
    {m : Importer ρ σ κ} {first : Text} {rest : List Text} (hstate : m.state = .header)
    (hkey : m.key = none) (h : G m.lines (first :: rest))
    (hnone : (Dialect.ofHeader first).isImportable = false) :
    m.run.1 = .error (.ofHeader (Dialect.ofHeader first) first) ∧ m.run.2.store = m.store := by
  rcases fetch_of_failsBehind hG h with ⟨hnil, -⟩ | ⟨line, rest', m', hleft, hfetch, rfl, -⟩
  · cases hnil
  · cases hleft
    obtain ⟨m'', hturn, hstore, hkey'⟩ := turn_of_invalid_header hstate hfetch hnone 0
    have hloop := loop_of_failed_turn hturn
    have hheld : m''.key = none := hkey'.trans hkey
    constructor
    · rw [run, hloop]
    · rw [store_run, hloop]
      simpa only [closeKey, hheld] using hstore

/-- A run that is broken off leaves what a run leaves that comes to its end at the same moment. -/
theorem run_of_brokenOff {ρ σ κ : Type} [LineSupply ρ] [RegistryStore σ κ]
    {m m₁ m' : Importer ρ σ κ} {whole : Importer ListedLines σ κ} {e : ImportError}
    {rest : List Text} (hloop : m.loop 0 = (.error e, m')) (hwhole : Agrees m₁ (whole.loop 0).2)
    (hbroken : BrokenOff rest m₁ m') :
    m.run.2.store = whole.run.2.store ∧ ∃ unknown, CutOff rest unknown ∧
      m.run.2.report.diagnostics = whole.run.2.report.diagnostics ++
        unknown.map fun c => ⟨LineSupply.lineNumber m₁.lines + 1, .unknownEscape c⟩ := by
  obtain ⟨unknown, hcut, hnoted⟩ := hbroken.noted
  constructor
  · rw [store_run, store_run, hloop]
    exact store_closeKey_congr (hbroken.key.trans hwhole.key.symm)
      (hbroken.store.trans hwhole.store.symm)
  · refine ⟨unknown, hcut, ?_⟩
    rw [report_run, report_run, hloop, hwhole.diagnostics]
    exact hnoted

end Importer

/-- A run of the importer `m` stops in front of the lines `left`: it has done what an import of the
lines `done` does, and of the lines `left` behind them nothing but to note the unknown escapes in
the name of their value. -/
structure StopsBefore (encoding : FileEncoding) (store : RecordedMemory) (done left : List Text)
    (m : Importer LineReader RecordedMemory KeyHandle) : Prop where
  /-- An import of all these lines takes its last turn in front of `left`.  So `done` are the
  lines of the other turns, and `left` is empty unless the lines end in a value that is not
  finished. -/
  last : ∃ (n : Importer ListedLines RecordedMemory KeyHandle) (place : Nat),
    (Importer.ofLines encoding (done ++ left) store).TakesLastTurn n place ∧
      n.lines = ⟨left, done.length⟩
  stored : m.run.2.store = (Importer.ofLines (κ := KeyHandle) encoding done store).run.2.store
  noted : ∃ unknown, CutOff left unknown ∧
    m.run.2.report.diagnostics =
      (Importer.ofLines (κ := KeyHandle) encoding done store).run.2.report.diagnostics ++
        unknown.map fun c => ⟨done.length + 1, .unknownEscape c⟩

/-- What an import leaves of a file that breaks behind `bytes`. -/
structure LeavesPrefix (options : ImportOptions) (store : RecordedMemory) (bytes : Bytes)
    (m : Importer LineReader RecordedMemory KeyHandle) : Prop where
  /-- It has done what an import of the complete lines does, but for those of a value that is
  not finished. -/
  done : ∃ done left, completeFileLines options.page bytes = done ++ left ∧
    StopsBefore (fileEncoding bytes) store done left m
  /-- Its log is the beginning of the log of every longer file, but for closing a key. -/
  log : ∃ log, (m.run.2.store.behind.behind.log = log ∨
      ∃ path, m.run.2.store.behind.behind.log = log ++ [.closeKey path]) ∧
    ∀ (more : Bytes) (whole : Source) (m' : Importer LineReader RecordedMemory KeyHandle),
      whole.Delivers (bytes ++ more) → Importer.ofSource whole store options = .ok m' →
        log <+: m'.run.2.store.behind.behind.log

/-- The log of a fresh store consists of the calls that were carried out, and no handle stays
open. -/
theorem Followed.log_run {ρ : Type} [LineSupply ρ] {m : Importer ρ RecordedMemory KeyHandle}
    (h : Followed m.store none) (hkey : m.key = none) :
    m.run.2.store.behind.behind.log = m.run.2.store.calls.filterMap StoreCall.logged? ∧
      m.run.2.store.behind.behind.openCount = 0 := by
  have hfollowed := (Importer.run_keeps keptByCalls_followed (hkey ▸ h)).1
  refine ⟨hfollowed.follows.log, ?_⟩
  rw [MemoryStore.openCount, hfollowed.follows.opened]
  rfl

/-- The log of a run that is broken off. -/
theorem log_of_brokenOff {ρ : Type} [LineSupply ρ] {m m₁ m' : Importer ρ RecordedMemory KeyHandle}
    {e : ImportError} {rest : List Text} (hfresh : Followed m.store none) (hkey : m.key = none)
    (hloop : m.loop 0 = (.error e, m')) (hbroken : Importer.BrokenOff rest m₁ m') :
    m.run.2.store.behind.behind.log = m₁.store.calls.filterMap StoreCall.logged? ∨
      ∃ path, m.run.2.store.behind.behind.log =
        m₁.store.calls.filterMap StoreCall.logged? ++ [.closeKey path] := by
  have hlog := (hfresh.log_run hkey).1
  rw [Importer.store_run, hloop, Importer.calls_closeKey, hbroken.store, hbroken.key,
    ← hloop, ← Importer.store_run, List.filterMap_append] at hlog
  cases hheld : m₁.key with
  | none => exact Or.inl (by simpa [hheld] using hlog)
  | some key => exact Or.inr ⟨key.path, by simpa [hheld, StoreCall.logged?] using hlog⟩

/-- A run over longer bytes comes to the moment at which the failing one was broken off, and then
goes on; so its log begins with what was done until then. -/
theorem prefix_log_of_longer {store : RecordedMemory} (hfollowed : Followed store none)
    {bytes more : Bytes} (hlength : 2 ≤ bytes.length) {options : ImportOptions}
    {m₁ : Importer LineReader RecordedMemory KeyHandle}
    (hlonger : ∀ behind, ∃ (n : Importer ListedLines RecordedMemory KeyHandle) (next : Nat),
      (Importer.ofLines (fileEncoding bytes) (completeFileLines options.page bytes ++ behind)
        store).Visits 0 n next ∧ Importer.Agrees m₁ n)
    {whole : Source} (hdelivers : whole.Delivers (bytes ++ more))
    {n : Importer LineReader RecordedMemory KeyHandle}
    (hn : Importer.ofSource whole store options = .ok n) :
    m₁.store.calls.filterMap StoreCall.logged? <+: n.run.2.store.behind.behind.log := by
  obtain ⟨behind, hbehind⟩ := prefix_completeFileLines options.page hlength more
  obtain ⟨n₁, next, hvisits, hagrees⟩ := hlonger behind
  rw [hbehind] at hvisits
  have hlength' : 2 ≤ (bytes ++ more).length := Nat.le_trans hlength (by simp)
  have hend := Importer.store_run_of_delivers hdelivers hlength' hn
  rw [fileEncoding_append hlength] at hend
  obtain ⟨hfresh, hkey⟩ := Importer.fresh_ofSource hn
  rw [(Followed.log_run (hfresh ▸ hfollowed) hkey).1, hend]
  have hcalls := hvisits.prefix_calls
  rw [hagrees.store] at hcalls
  exact hcalls.filterMap _

/-- **A failing read leaves a clean prefix.**  If the first complete line is no header, that is
the error, and no call of the store is made.  Otherwise the import fails with the message of the
read and leaves a prefix.  In both cases no handle stays open and the reader is closed. -/
theorem run_of_breaks {source : Source} {message : Text} {bytes : Bytes}
    (h : source.Breaks message bytes) (hlength : 2 ≤ bytes.length) (denied : List Text)
    (refuses : Nat → Bool) (options : ImportOptions) :
    ∃ m : Importer LineReader RecordedMemory KeyHandle,
      Importer.ofSource source ⟨⟨denied.foldl MemoryStore.deny {}, refuses, 0⟩, []⟩ options =
        .ok m ∧
      m.run.2.key = none ∧ m.run.2.store.behind.behind.openCount = 0 ∧
      m.run.2.lines.isClosed = true ∧
      (∀ first rest, completeFileLines options.page bytes = first :: rest →
        (Dialect.ofHeader first).isImportable = false →
          m.run.1 = .error (.ofHeader (Dialect.ofHeader first) first) ∧
            m.run.2.store.calls = []) ∧
      ((∀ first ∈ (completeFileLines options.page bytes).head?,
          (Dialect.ofHeader first).isImportable = true) →
        m.run.1 = .error (.io message) ∧
          LeavesPrefix options ⟨⟨denied.foldl MemoryStore.deny {}, refuses, 0⟩, []⟩ bytes m) := by
  match bytes with
  | [] => simp at hlength
  | [_] => simp at hlength
  | first :: second :: bytes =>
      let store : RecordedMemory := ⟨⟨denied.foldl MemoryStore.deny {}, refuses, 0⟩, []⟩
      have hfollowed : Followed store none := ⟨MemoryStore.follows_deny denied, by simp [store]⟩
      obtain ⟨rest, hrest, hm⟩ := Importer.ofSource_of_breaks (κ := KeyHandle) h store options
      have hgives := Importer.givesBefore_ofFirstBytes (κ := KeyHandle) first second hrest store
        options
      let m := Importer.ofFirstBytes (κ := KeyHandle) first second rest store options
      have hfails := LineReader.failsBehind message rest.failures
      obtain ⟨hlog, hclosed⟩ := Followed.log_run (m := m) hfollowed rfl
      refine ⟨m, hm, (Importer.run_keeps (keptByCalls_extends []) (List.nil_prefix)).2, hclosed,
        m.isClosed_run, ?_, ?_⟩
      · intro line lines hlines hnone
        rw [hlines] at hgives
        obtain ⟨houtcome, hstore⟩ :=
          Importer.run_of_invalid_header (m := m) hfails rfl rfl hgives hnone
        refine ⟨houtcome, ?_⟩
        rw [hstore]
        rfl
      · intro hheader
        have hnumber := Importer.lineNumber_ofFirstBytes (κ := KeyHandle) first second rest store
          options
        obtain ⟨m₁, m', hloop, ⟨done, left, hleft, hdone, hlast, hwhole, hbroken⟩, hlonger⟩ :=
          Importer.loop_of_failsBehind (m := m) hfails rfl rfl rfl rfl hnumber hgives hheader
        obtain ⟨hstore, unknown, hcut, hnoted⟩ := Importer.run_of_brokenOff hloop hwhole hbroken
        rw [hdone] at hnoted
        rw [hleft] at hlast
        exact ⟨by rw [Importer.run, hloop],
          ⟨done, left, hleft, hlast, hstore, unknown, hcut, hnoted⟩,
          _, log_of_brokenOff (m := m) hfollowed rfl hloop hbroken,
          fun more whole n hdelivers hn =>
            prefix_log_of_longer hfollowed hlength hlonger hdelivers hn⟩

/-- All but the first byte of a wide file that breaks in its last line feed, while a list of
bytes is continued. -/
def behindFirstByte : Bytes :=
  0xFE :: Utf16.littleEndian
    (Utf16.encode "REGEDIT4\r\n[HKCU\\A]\r\"a\\q\"=hex:01,\\\n;c\r02,\\\r".toList) ++ [0x0A]

/-- A source of that file, in pieces. -/
def wideSourceThatBreaks : Source :=
  ⟨[.data [0xFF], .interruption, .data behindFirstByte, .failure "broken".toList, .data [0]],
    some 3⟩

/-- A carriage return in the last whole unit ends no line, and neither the list nor its value is
carried out. -/
theorem run_of_breaks_wide :
    completeFileLines ({} : ImportOptions).page (0xFF :: behindFirstByte) =
        ["REGEDIT4".toList, "[HKCU\\A]".toList, "\"a\\q\"=hex:01,\\".toList, ";c".toList] ∧
      ∃ m : Importer LineReader RecordedMemory KeyHandle,
        Importer.ofSource wideSourceThatBreaks
            ⟨⟨["HKU".toList].foldl MemoryStore.deny {}, fun n => n == 0, 0⟩, []⟩ {} = .ok m ∧
          m.run.2.store.behind.behind.openCount = 0 ∧
          m.run.1 = .error (.io "broken".toList) ∧
          LeavesPrefix {} ⟨⟨["HKU".toList].foldl MemoryStore.deny {}, fun n => n == 0, 0⟩, []⟩
            (0xFF :: behindFirstByte) m := by
  have hlines : completeFileLines ({} : ImportOptions).page (0xFF :: behindFirstByte) =
      ["REGEDIT4".toList, "[HKCU\\A]".toList, "\"a\\q\"=hex:01,\\".toList, ";c".toList] := by
    decide +kernel
  have hbreaks : wideSourceThatBreaks.Breaks "broken".toList (0xFF :: behindFirstByte) := by
    have hbytes : 0xFF :: behindFirstByte = [0xFF] ++ (behindFirstByte ++ []) := by
      rw [List.append_nil, List.singleton_append]
    rw [hbytes]
    exact ⟨.data (by decide) (.interruption (.data (by decide) (.failure _))), by decide⟩
  obtain ⟨m, hm, -, hclosed, -, -, himportable⟩ := run_of_breaks hbreaks (by decide)
    ["HKU".toList] (fun n => n == 0) {}
  obtain ⟨houtcome, hprefix⟩ := himportable (by rw [hlines]; decide)
  exact ⟨hlines, m, hm, hclosed, houtcome, hprefix⟩

/-- A narrow file that ends within a list of bytes, behind a name with an unknown escape. -/
def textOfUnknownEscape : Text :=
  "REGEDIT4\n[HKEY_CURRENT_USER\\A]\n\"a\\q\"=hex:01,\\\n".toList

/-- The unknown escape in the name of a value that is not finished is noted, though nothing else
of the value is carried out. -/
theorem unknownEscape_of_unfinished :
    Source.Breaks ⟨[.data (Utf8.encode textOfUnknownEscape), .failure "broken".toList], none⟩
        "broken".toList (Utf8.encode textOfUnknownEscape) ∧
      completeFileLines ({} : ImportOptions).page (Utf8.encode textOfUnknownEscape) =
        ["REGEDIT4".toList, "[HKEY_CURRENT_USER\\A]".toList, "\"a\\q\"=hex:01,\\".toList] ∧
      Unfinished "\"a\\q\"=hex:01,\\".toList [] ∧
      ∃ m : Importer LineReader RecordedMemory KeyHandle,
        Importer.ofSource
            ⟨[.data (Utf8.encode textOfUnknownEscape), .failure "broken".toList], none⟩
            ⟨⟨{}, fun _ => false, 0⟩, []⟩ {} = .ok m ∧
          m.run.2.store.behind.behind.log = [.openKey "HKEY_CURRENT_USER\\A".toList,
            .closeKey "HKEY_CURRENT_USER\\A".toList] ∧
          m.run.2.report.diagnostics = [⟨3, .unknownEscape 'q'⟩] := by
  refine ⟨?_, by decide +kernel, ?_, ?_⟩
  · rw [← List.append_nil (Utf8.encode textOfUnknownEscape)]
    exact ⟨.data (by decide) (.failure _), by decide⟩
  · have hread : (Reading.ofLine "\"a\\q\"=hex:01,\\".toList).statement =
        .list (some "aq".toList) .binary [0x01] := by decide +kernel
    have hmore : HexList.Continued ["02".toList] [0x02] :=
      .last (by decide) (HexList.readLine_eq_some_iff.mp (by decide +kernel))
    refine ⟨"02".toList, ⟨some "aq".toList, .binary, [0x01, 0x02]⟩, Reading.sets_ofLine_iff.mp ?_⟩
    rw [hread]
    exact ⟨[0x02], hmore, rfl⟩
  · refine ⟨_, rfl, ?_, ?_⟩
    · decide +kernel
    · decide +kernel

end RegistryText
