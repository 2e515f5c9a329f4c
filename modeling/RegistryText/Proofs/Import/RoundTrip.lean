import RegistryText.Proofs.Import.ByteDependence
import RegistryText.Proofs.Import.Replay
import RegistryText.Proofs.Store.Memory

/-!
# Imports of written files

A written file is imported as it was meant: **the log of an empty store is, section
by section, the key that is opened, the values that are set, in order, and the
key that is closed** (`log_of_written`).

A line with a key closes the open key before it opens its own one, so the block
of a section is complete only when the next section begins, or the run ends.
The induction over the sections therefore speaks of the log together with what
closing the open key would add to it.
-/

namespace RegistryText

/-- What closing the open key, if there is one, adds to the log. -/
def closingOps (key : Option KeyHandle) : List StoreOp :=
  key.toList.map fun handle => .closeKey handle.path

namespace Importer

variable {d : Dialect} {left : List Text} {log : List StoreOp} {key : Option KeyHandle}
  {m : Importer ListedLines MemoryStore KeyHandle}

/-! ### Keys -/

/-- The open key is closed. -/
theorem Replayed.closeKey (h : m.Replayed d left log key) :
    m.closeKey.Replayed d left (log ++ closingOps key) none := by
  cases key with
  | none =>
      have hclosed : m.closeKey = { m with valueName := none } := by
        simp only [Importer.closeKey, h.key_eq]
      rw [hclosed, closingOps, Option.toList_none, List.map_nil, List.append_nil]
      exact h.onward rfl rfl rfl
  | some handle =>
      have hclosed : m.closeKey =
          { m with store := m.store.closeKey handle, key := none, valueName := none } := by
        simp only [Importer.closeKey, h.key_eq]
        rfl
      rw [hclosed]
      exact ⟨h.left_eq, h.dialect_eq, h.clean, rfl, h.holds.closeKey⟩

/-- The key of a path with a root is opened. -/
theorem Replayed.openKey (h : m.Replayed d left log key) {path below : Text} {root : RootKey}
    (hsplit : RootKey.split? path = some (root, below)) :
    ∃ handle, handle.path = canonicalPath root below ∧
      (m.openKey path).2.Replayed d left
        (log ++ closingOps key ++ [.openKey handle.path]) (some handle) := by
  have hclosed := h.closeKey
  obtain ⟨handle, store, hopen, hpath, hholds⟩ := hclosed.holds.openKey root below
  have hrequest : requestKey m.closeKey.store path = (.ok handle, store) :=
    (requestKey_of_root hsplit).trans hopen
  have hopened : (m.openKey path).2 = { m.closeKey with
      store := store
      key := some handle
      report := { m.closeKey.report with keysOpened := m.closeKey.report.keysOpened + 1 } } := by
    simp only [Importer.openKey, hrequest]
  refine ⟨handle, hpath, ?_⟩
  rw [hopened]
  exact ⟨hclosed.left_eq, hclosed.dialect_eq, hclosed.clean, rfl, hholds⟩

/-- **The line of a key closes the open key and opens its own one.** -/
theorem key_written (place : Nat) {section' : RegistrySection}
    (h : m.Replayed d (section'.keyLine :: left) log key) (hstate : m.state = .lineStart) :
    ∃ (next : Nat) (m' : Importer ListedLines MemoryStore KeyHandle) (handle : KeyHandle),
      m.loop place = m'.loop next ∧ m'.state = .lineStart ∧ handle.path = section'.block.path ∧
        m'.Replayed d left (log ++ closingOps key ++ [.openKey handle.path]) (some handle) := by
  have hstep := step_line place hstate h.left_eq
  rw [dispatch_key (m := m.took section'.keyLine left) rfl] at hstep
  have hat : section'.keyLine.At 1 (section'.path ++ [']']) :=
    (Text.at_zero ('[' :: (section'.path ++ [']']))).next (by decide)
  have hname := loop_of_proceed (m := (m.took section'.keyLine left).enter .keyName)
    (by rw [step]; exact keyNameStep_written section'.split hat)
  obtain ⟨handle, hpath, hopened⟩ := Replayed.openKey
    (m := (m.took section'.keyLine left).enter .keyName)
    (h.took.onward rfl rfl rfl) section'.split
  exact ⟨1, _, handle, (loop_of_proceed hstep).trans hname, rfl, hpath,
    hopened.onward rfl rfl rfl⟩

/-- **Written sections are replayed block by block.** -/
theorem sections_written (place : Nat) {sections : List RegistrySection} {lines : List Text}
    (hw : SectionsWritten sections lines) (h : m.Replayed d (lines ++ left) log key)
    (hstructured : d.isStructured = true) (hstate : m.state = .lineStart) :
    ∃ (next : Nat) (m' : Importer ListedLines MemoryStore KeyHandle) (log' : List StoreOp)
        (key' : Option KeyHandle),
      m.loop place = m'.loop next ∧ m'.state = .lineStart ∧ m'.Replayed d left log' key' ∧
        log' ++ closingOps key' =
          log ++ closingOps key ++ sections.flatMap fun section' => section'.block.ops := by
  induction hw generalizing m log key place with
  | nil => exact ⟨place, m, log, key, rfl, hstate, h, by simp⟩
  | @cons section' sections lines more head tail ih =>
      rw [List.cons_append, List.append_assoc] at h
      obtain ⟨p, m₁, handle, hkey, hstart, hpath, hopened⟩ := key_written place h hstate
      obtain ⟨q, m₂, hentries, hend, hset⟩ :=
        entries_written p head hopened hstructured hstart
      obtain ⟨next, m₃, log', key', hsections, hlast, hreplayed, hlog⟩ := ih q hset hend
      refine ⟨next, m₃, log', key', hkey.trans (hentries.trans hsections), hlast, hreplayed, ?_⟩
      rw [hlog, hpath]
      simp [closingOps, hpath, KeyBlock.ops, RegistrySection.block]

/-! ### Files -/

/-- The header of a dialect leads to the body. -/
theorem header_written {header : Text} (hheader : d.header? = some header)
    (hstructured : d.isStructured = true) (encoding : FileEncoding) (lines : List Text) :
    ∃ m' : Importer ListedLines MemoryStore KeyHandle,
      (ofLines encoding (header :: lines) ({} : MemoryStore)).loop 0 = m'.loop 0 ∧
        m'.state = .lineStart ∧ m'.Replayed d lines [] none := by
  have himportable : d.isImportable = true := by
    cases d <;> first | rfl | cases hstructured
  have hfetch := fetch_cons (m := ofLines encoding (header :: lines) ({} : MemoryStore)) rfl
  have hstep : (ofLines (κ := KeyHandle) encoding (header :: lines) ({} : MemoryStore)).step 0 =
      ((ofLines encoding (header :: lines) ({} : MemoryStore)).took header lines).classify := by
    have hstate : (ofLines (κ := KeyHandle) encoding (header :: lines) ({} : MemoryStore)).state =
        .header := rfl
    rw [step, hstate]
    simp only [headerStep, hfetch]
  have hdialect : Dialect.ofHeader
      ((ofLines (κ := KeyHandle) encoding (header :: lines) ({} : MemoryStore)).took header
        lines).line = d := Dialect.ofHeader_of_header? hheader
  rw [classify, hdialect] at hstep
  simp only [himportable, hstructured, Bool.not_true, Bool.false_eq_true, if_false, if_true]
    at hstep
  exact ⟨_, loop_of_proceed hstep, rfl, rfl, rfl, rfl, rfl, MemoryStore.holds_empty⟩

/-- **A run of the lines of a written file replays its sections.** -/
theorem run_written {header : Text} {sections : List RegistrySection} {lines : List Text}
    (hheader : d.header? = some header) (hstructured : d.isStructured = true)
    (hw : SectionsWritten sections lines) (encoding : FileEncoding) :
    ∃ m' : Importer ListedLines MemoryStore KeyHandle,
      (ofLines encoding (header :: lines) ({} : MemoryStore)).run =
          (.error (.notImplemented d), m') ∧
        m'.report.diagnostics = [] ∧
        m'.store.Holds (sections.flatMap fun section' => section'.block.ops) none := by
  obtain ⟨m₁, hheaded, hstart, hreplayed⟩ := header_written hheader hstructured encoding lines
  have hbody : m₁.Replayed d (lines ++ []) [] none := by simpa using hreplayed
  obtain ⟨next, m₂, log, key, hloop, hend, hread, hlog⟩ :=
    sections_written 0 hw hbody hstructured hstart
  have hover : m₂.loop next = (.ok (), m₂) := by
    refine loop_of_finished ?_
    rw [step, hend]
    simp only [lineStartStep, fetch_nil hread.left_eq]
  have hclosed := hread.closeKey
  have houtcome : outcome m₂.finish.dialect = .error (.notImplemented d) := by
    have hdialect : m₂.finish.dialect = some d := hclosed.dialect_eq
    simp only [outcome, hdialect, hstructured, if_true]
  refine ⟨m₂.finish, ?_, hclosed.clean, ?_⟩
  · simp only [run, hheaded, hloop, hover, houtcome]
  · have hops : log ++ closingOps key = sections.flatMap fun section' => section'.block.ops := hlog
    exact hops ▸ hclosed.holds

end Importer

/-- A written file has two characters at least. -/
theorem FileWritten.two_le_length {d : Dialect} {sections : List RegistrySection} {text : Text}
    (h : FileWritten d sections text) : 2 ≤ text.length := by
  obtain ⟨header, lines, hheader, -, hended⟩ := h.ended
  obtain ⟨c, rest, rfl⟩ := List.exists_cons_of_ne_nil (isLine_header hheader).1
  cases hended with
  | @cons line ending text lines hending tail =>
      have hne : ending ≠ [] := by
        rintro rfl
        exact absurd hending (by decide)
      have hpos := List.length_pos_iff.mpr hne
      simp only [List.length_append, List.length_cons]
      omega

/-- **An import of a written file into an empty store replays its sections.**  The
log is that of one block for each section, in order, and nothing else; no
problem is noted, and every key is closed. -/
theorem log_of_written {d : Dialect} {sections : List RegistrySection} {text : Text}
    {bytes : Bytes} {source : Source} (options : ImportOptions) (hw : FileWritten d sections text)
    (hfile : FileOf options.page text bytes) (h : source.Delivers bytes) :
    ∃ view, importView source ({} : MemoryStore) options = .ok view ∧
      view.store.log = sections.flatMap (fun section' => section'.block.ops) ∧
      view.store.openCount = 0 ∧ view.report.diagnostics = [] ∧
      view.outcome = .error (.notImplemented d) := by
  have hlength := hfile.two_le_length hw.two_le_length
  obtain ⟨header, lines, hheader, hsections, hended⟩ := hw.ended
  have hlines : fileLines options.page bytes = header :: lines := by
    rw [hfile.fileLines_eq, linesOf_of_ended hended]
    exact List.forall_mem_cons.mpr ⟨isLine_header hheader, hsections.isLine⟩
  obtain ⟨m, hrun, hclean, hholds⟩ :=
    Importer.run_written hheader hw.structured hsections (fileEncoding bytes)
  refine ⟨Importer.view (.error (.notImplemented d), m), ?_, hholds.log, ?_, hclean, rfl⟩
  · rw [importView_of_delivers h, viewOfBytes, if_neg (Nat.not_lt.mpr hlength), hlines, hrun]
  · exact congrArg List.length hholds.opened

/-- A file with all three line ends, an escaped line feed, and a list of bytes that
is broken and indented. -/
theorem log_of_written_broken :
    ∃ (sections : List RegistrySection) (text : Text),
      text = ("REGEDIT4\r\n[hkcu\\A]\r@=\"x\\n;\"\n" ++
        "\"n\"=hex(80000000):01,\\\r\n \t2\r[HKLM]\n\"\"=dword:0000000A\r\n").toList ∧
      FileWritten .version4 sections text ∧
      ∃ view,
        importView (.ofBytes (wideBytes (Utf16.encode text))) ({} : MemoryStore) {} = .ok view ∧
        view.store.log =
          [.openKey "HKEY_CURRENT_USER\\A".toList,
            .setValue "HKEY_CURRENT_USER\\A".toList none .string (stringData "x\n;".toList),
            .setValue "HKEY_CURRENT_USER\\A".toList (some ['n']) (.ofCode 0x80000000) [1, 2],
            .closeKey "HKEY_CURRENT_USER\\A".toList,
            .openKey "HKEY_LOCAL_MACHINE".toList,
            .setValue "HKEY_LOCAL_MACHINE".toList (some []) .dword [10, 0, 0, 0],
            .closeKey "HKEY_LOCAL_MACHINE".toList] := by
  have hescaped : Escaped.Written ['x', '\n', ';'] ['x', '\\', 'n', ';'] :=
    .plain (by decide) (.escape (by decide) (.plain (by decide) .nil))
  have hname : Escaped.Written ['n'] ['n'] := .plain (by decide) .nil
  have hcode := (hexWritten_hexPadded .upper 8 (UInt32.toNat_lt 0x80000000)).1
  have hone : HexList.ByteWritten 1 ['0', '1'] :=
    ⟨(hexWritten_hexPadded .upper 2 (by decide : 1 < Nat.pow 16 2)).1, Or.inr rfl⟩
  have htwo : HexList.ByteWritten 2 ['2'] :=
    ⟨(hexWritten_hexPadded .upper 1 (by decide : 2 < Nat.pow 16 1)).1, Or.inl rfl⟩
  have hbytes : HexList.Written [1, 2] [['0', '1'] ++ [',', '\\'], [' ', '\t'] ++ ['2']] :=
    .broken hone (by decide) (by simp [isBlank]) (.last htwo)
  have hnumber := hexWritten_hexPadded .upper 8 (UInt32.toNat_lt 10)
  have hsections : SectionsWritten
      [⟨"hkcu\\A".toList, .currentUser, ['A'],
          [⟨none, .text ['x', '\n', ';']⟩, ⟨some ['n'], .bytes 0x80000000 [1, 2]⟩],
          by decide, by decide⟩,
        ⟨"HKLM".toList, .localMachine, [], [⟨some [], .dword 10⟩], by decide, by decide⟩] _ :=
    .cons (.cons (.mk .default (.text hescaped))
        (.cons (.mk (.quoted hname) (.bytes hcode (by decide) hbytes)) .nil))
      (.cons (.cons (.mk (.quoted .nil) (.dword hnumber.1 hnumber.2)) .nil) .nil)
  have hwritten : FileWritten .version4 _ _ := ⟨rfl, Dialect.version4Header, _, rfl, hsections,
    .cons (by decide : ['\r', '\n'] ∈ lineEnds) (.cons (by decide : ['\r'] ∈ lineEnds)
      (.cons (by decide : ['\n'] ∈ lineEnds) (.cons (by decide : ['\r', '\n'] ∈ lineEnds)
        (.cons (by decide : ['\r'] ∈ lineEnds) (.cons (by decide : ['\n'] ∈ lineEnds)
          (.cons (by decide : ['\r', '\n'] ∈ lineEnds) .nil))))))⟩
  obtain ⟨view, hview, hlog, -⟩ :=
    log_of_written {} hwritten .wide (Source.delivers_ofBytes _)
  exact ⟨_, _, rfl, hwritten, view, hview, hlog⟩

end RegistryText
