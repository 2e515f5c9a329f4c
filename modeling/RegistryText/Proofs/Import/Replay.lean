import RegistryText.Import.Run
import RegistryText.Proofs.Import.Quiet
import RegistryText.Proofs.Import.WrittenSteps
import RegistryText.Proofs.Lines.Listed
import RegistryText.Proofs.Store.Memory

/-!
# Replaying written entries

An import of written lines does what their writer meant.  `Replayed` says how
far an importer has come: which lines are left, what the store has logged, and
which key is open.

**A written payload is read through all its lines** (`payload_written`), **and a
written entry sets its value** (`entry_written`): its name, its type and its
data, under the open key.  The proofs follow the forms of an entry, one step of
the importer after the other.
-/

namespace RegistryText

namespace Importer

/-- The importer has replayed `log` without a problem and holds `key`; the lines
`left` are left to it. -/
structure Replayed (d : Dialect) (left : List Text) (log : List StoreOp) (key : Option KeyHandle)
    (m : Importer ListedLines MemoryStore KeyHandle) : Prop where
  left_eq : m.lines.left = left
  dialect_eq : m.dialect = some d
  clean : m.report.diagnostics = []
  key_eq : m.key = key
  holds : m.store.Holds log key

variable {d : Dialect} {left : List Text} {log : List StoreOp} {key : Option KeyHandle}
  {m m' : Importer ListedLines MemoryStore KeyHandle} {place : Nat}

/-- Going on within a line replays nothing. -/
theorem Replayed.onward (h : m.Replayed d left log key) (houtside : m'.outside = m.outside)
    (hdialect : m'.dialect = m.dialect) (hreport : m'.report = m.report) :
    m'.Replayed d left log key where
  left_eq := (congrArg ListedLines.left (lines_of_outside houtside)).trans h.left_eq
  dialect_eq := hdialect.trans h.dialect_eq
  clean := (congrArg ImportReport.diagnostics hreport).trans h.clean
  key_eq := (key_of_outside houtside).trans h.key_eq
  holds := store_of_outside houtside ▸ h.holds

/-- The importer with the next line as the current one. -/
def took (line : Text) (left : List Text) (m : Importer ListedLines MemoryStore KeyHandle) :
    Importer ListedLines MemoryStore KeyHandle :=
  { m with
    lines := ⟨left, m.lines.given + 1⟩
    line := line
    report := { m.report with lines := m.lines.given + 1 } }

theorem fetch_cons {line : Text} (h : m.lines.left = line :: left) :
    m.fetch = (.ok true, m.took line left) := by
  have hnext : LineSupply.next m.lines = (.ok (some line), ⟨left, m.lines.given + 1⟩) := by
    show ListedLines.next m.lines = _
    rw [ListedLines.next, h]
  rw [fetch, hnext]
  rfl

theorem fetch_nil (h : m.lines.left = []) : m.fetch = (.ok false, m) := by
  have hnext : LineSupply.next m.lines = (.ok none, m.lines) := by
    show ListedLines.next m.lines = _
    rw [ListedLines.next, h]
  rw [fetch, hnext]

theorem Replayed.took {line : Text} (h : m.Replayed d (line :: left) log key) :
    (m.took line left).Replayed d left log key :=
  ⟨rfl, h.dialect_eq, h.clean, h.key_eq, h.holds⟩

/-! ### Payloads -/

/-- **A written list of bytes is read through all its lines.** -/
theorem continueList_written {bytes : Bytes} {line : Text} {more : List Text}
    (hw : HexList.Written bytes (line :: more)) (front : Bytes)
    (h : m.Replayed d (more ++ left) log key) :
    ∃ (next : Nat) (m' : Importer ListedLines MemoryStore KeyHandle),
      m.continueList (HexList.readLine line).1 (front ++ (HexList.readLine line).2) =
          (.proceed next, m'.stage (front ++ bytes)) ∧
        m'.Replayed d left log key ∧ m'.valueName = m.valueName ∧ m'.dataType = m.dataType := by
  generalize hlines : line :: more = lines at hw
  induction hw generalizing line more front m with
  | empty =>
      cases hlines
      have hstop : HexList.item [] = .stop .complete [] := by decide
      rw [HexList.readLine_of_stop hstop, continueList]
      exact ⟨_, m, rfl, h, rfl, rfl⟩
  | last hb =>
      cases hlines
      rw [HexList.readLine_of_stop (HexList.item_last hb), continueList]
      exact ⟨_, m, rfl, h, rfl, rfl⟩
  | @next b bytes digits line' lines' hb hne tail ih =>
      cases hlines
      rw [HexList.readLine_of_byte (HexList.item_next hb line')]
      simpa using ih (front ++ [b]) h rfl
  | @broken b bytes digits indent line' lines' hb hne hindent tail ih =>
      cases hlines
      obtain ⟨c, rest, rfl, hc⟩ := tail.head_line hne
      have hskip : Text.skipBlanks (indent ++ c :: rest) = c :: rest := by
        rw [Text.skipBlanks_append hindent, Text.skipBlanks_cons (isBlank_of_isHexDigit hc)]
      rw [List.cons_append] at h
      have hfetch := fetch_cons h.left_eq
      have hlist : Text.startsWith (c :: rest) [';'] = false := by
        simp [Text.startsWith, Text.after?, (ne_of_isHexDigit hc).1.symm]
      have hline : (m.took (indent ++ c :: rest) (lines' ++ left)).line.skipBlanks = c :: rest :=
        hskip
      rw [HexList.readLine_broken hb, continueList_of_line hfetch (by rw [hline, hlist]), hline]
      have hrest := ih (front ++ [b]) h.took rfl
      simp only [List.append_assoc, List.singleton_append] at hrest ⊢
      exact hrest

/-- What the loop has come to when a value is complete: the value is to be set next. -/
structure Completed (write : KeyWrite) (m : Importer ListedLines MemoryStore KeyHandle) : Prop where
  state_eq : m.state = .writing
  name_eq : m.valueName = write.name
  type_eq : m.dataType = write.type
  staged_eq : m.staged = some write.data

/-- **A written payload is read as what it means.** -/
theorem payload_written {payload : EntryPayload} {data : Text} {more : List Text}
    (hw : PayloadWritten payload data more) (h : m.Replayed d (more ++ left) log key)
    (hstate : m.state = .typeTag) (hat : m.line.At place data) :
    ∃ (next : Nat) (m' : Importer ListedLines MemoryStore KeyHandle),
      m.loop place = m'.loop next ∧ m'.Replayed d left log key ∧
        m'.Completed ⟨m.valueName, payload.type, payload.data⟩ := by
  have htag : ∀ {tag : TypeTag} {rest : Text}, TypeTag.read? data = some (tag, rest) →
      m.step place = (.proceed (m.line.placeOf rest),
        { m with dataType := tag.declared, state := payloadState tag.payload }) := by
    intro tag rest hread
    rw [step, hstate]
    exact typeTagStep_written hread hat
  cases hw with
  | @text t written hw =>
      have hbehind : m.line.At _ (written ++ ['"']) := hat.drop ['"']
      rw [loop_of_proceed (htag (TypeTag.read?_string _)),
        loop_of_proceed (by rw [step]; exact stringStep_written hw hbehind)]
      exact ⟨_, _, rfl, h.onward rfl rfl rfl, rfl, rfl, rfl, rfl⟩
  | @dword value digits hw hlength =>
      have hbehind : m.line.At _ digits := hat.drop "dword:".toList
      rw [loop_of_proceed (htag (TypeTag.read?_dword _)),
        loop_of_proceed (by rw [step]; exact dwordStep_written hw hlength hbehind)]
      exact ⟨_, _, rfl, h.onward rfl rfl rfl, rfl, rfl, rfl, rfl⟩
  | @bytes code bytes digits line more hcode hne hw =>
      have hbehind : m.line.At _ line :=
        hat.drop ("hex(".toList ++ digits ++ "):".toList)
      obtain ⟨next, m', hread, hreplayed, hname, htype⟩ := continueList_written
        (m := { m with dataType := ValueType.ofCode code, state := .hexPayload }) hw []
        (h.onward rfl rfl rfl)
      have hstep : Importer.step
          { m with dataType := ValueType.ofCode code, state := .hexPayload }
          (m.line.placeOf line) = (.proceed next, m'.stage bytes) := by
        rw [step]
        simp only [hexStep, hbehind.fromPlace]
        exact hread
      have hloop := loop_of_proceed (htag (TypeTag.read?_typed hcode hne line))
      exact ⟨_, _, hloop.trans (loop_of_proceed hstep), hreplayed.onward rfl rfl rfl, rfl, hname, htype,
        rfl⟩

/-! ### Lines -/

/-- A complete value is set under the open key. -/
theorem Replayed.write (place : Nat) {write : KeyWrite} {handle : KeyHandle}
    (h : m.Replayed d left log (some handle)) (hstructured : d.isStructured = true)
    (hvalue : m.Completed write) :
    ∃ m' : Importer ListedLines MemoryStore KeyHandle, m.loop place = m'.loop place ∧
      m'.state = .lineStart ∧
      m'.Replayed d left (log ++ [write.op handle.path]) (some handle) := by
  obtain ⟨store, hset, hholds⟩ := (h.key_eq ▸ h.holds : m.store.Holds log (some handle)).setValue
    write.name write.type write.data
  have hwritten : m.setStaged = { m with
      staged := none
      store := store
      report := { m.report with valuesWritten := m.report.valuesWritten + 1 } } := by
    have hcall : RegistryStore.setValue m.store handle m.valueName m.dataType (m.staged.getD []) =
        (.ok (), store) := by
      rw [hvalue.name_eq, hvalue.type_eq, hvalue.staged_eq]
      exact hset
    simp only [setStaged, h.key_eq, hcall]
  have hdialect : m.dialect ≠ some .windows31 := by
    rw [h.dialect_eq]
    rintro heq
    cases heq
    cases hstructured
  have hstep : m.step place = (.proceed place, m.setStaged.enter .lineStart) := by
    rw [step, hvalue.state_eq]
    simp only [writingStep]
    rw [if_neg (by rw [hwritten]; exact hdialect)]
  refine ⟨_, loop_of_proceed hstep, rfl, ?_⟩
  rw [hwritten]
  exact ⟨h.left_eq, h.dialect_eq, h.clean, h.key_eq, hholds⟩

/-- The line in front of which the importer stands is taken. -/
theorem step_line (place : Nat) {line : Text} {lines : List Text} (hstate : m.state = .lineStart)
    (hleft : m.lines.left = line :: lines) : m.step place = (m.took line lines).dispatch := by
  rw [step, hstate]
  simp only [lineStartStep, fetch_cons hleft]

/-- **A written name is read up to the equals sign.** -/
theorem name_written (place : Nat) {name : Option Text} {written data : Text} {lines : List Text}
    (hw : NameWritten name written) (hstate : m.state = .lineStart)
    (hleft : m.lines.left = (written ++ '=' :: data) :: lines) :
    ∃ next, m.loop place = Importer.loop { m.took (written ++ '=' :: data) lines with
        valueName := name, state := .assignment } next ∧
      Text.At (written ++ '=' :: data) next ('=' :: data) := by
  have hstep := step_line place hstate hleft
  cases hw with
  | default =>
      have hdispatch := dispatch_default (m := m.took (['@'] ++ '=' :: data) lines) rfl
      rw [hdispatch] at hstep
      refine ⟨1, ?_, (Text.at_zero _).next (by decide)⟩
      rw [loop_of_proceed hstep, loop_of_proceed (by rw [step]; rfl)]
      rfl
  | @quoted name written hw =>
      have hdispatch := dispatch_quoted
        (m := m.took ('"' :: written ++ ['"'] ++ '=' :: data) lines) rfl
      rw [hdispatch] at hstep
      have hat : Text.At ('"' :: written ++ ['"'] ++ '=' :: data) 1
          (written ++ '"' :: '=' :: data) := by
        have hbehind := (Text.at_zero ('"' :: (written ++ '"' :: '=' :: data))).next (by decide)
        simpa using hbehind
      have hequals : Text.At ('"' :: written ++ ['"'] ++ '=' :: data) 1
          (written ++ ['"'] ++ '=' :: data) := by simpa using hat
      refine ⟨_, ?_, hequals.drop (written ++ ['"'])⟩
      rw [loop_of_proceed hstep]
      exact loop_of_proceed (by rw [step]; exact quotedNameStep_written hw hat)

/-- **A written entry sets its value.** -/
theorem entry_written (place : Nat) {entry : RegistryEntry} {lines : List Text} {handle : KeyHandle}
    (hw : EntryWritten entry lines) (h : m.Replayed d (lines ++ left) log (some handle))
    (hstructured : d.isStructured = true) (hstate : m.state = .lineStart) :
    ∃ (next : Nat) (m' : Importer ListedLines MemoryStore KeyHandle),
      m.loop place = m'.loop next ∧ m'.state = .lineStart ∧
        m'.Replayed d left (log ++ [entry.write.op handle.path]) (some handle) := by
  cases hw with
  | @mk name data more hname hpayload =>
      rw [List.cons_append] at h
      obtain ⟨p, hnamed, hat⟩ := name_written place hname hstate h.left_eq
      have hassigned := loop_of_proceed
        (m := { m.took (name ++ '=' :: data) (more ++ left) with
          valueName := entry.name, state := .assignment })
        (by rw [step]; exact assignmentStep_written hpayload.compact hat)
      obtain ⟨next, complete, hread, hreplayed, hvalue⟩ := payload_written hpayload
        (m := Importer.enter { m.took (name ++ '=' :: data) (more ++ left) with
          valueName := entry.name, state := .assignment } .typeTag)
        (h.took.onward rfl rfl rfl) rfl
        (hat.drop ['='])
      obtain ⟨m', hset, hstart, hwritten⟩ := hreplayed.write next hstructured hvalue
      exact ⟨next, m', hnamed.trans (hassigned.trans (hread.trans hset)), hstart, hwritten⟩

/-- **Written entries set their values, in order.** -/
theorem entries_written (place : Nat) {entries : List RegistryEntry} {lines : List Text}
    {handle : KeyHandle} (hw : EntriesWritten entries lines)
    (h : m.Replayed d (lines ++ left) log (some handle)) (hstructured : d.isStructured = true)
    (hstate : m.state = .lineStart) :
    ∃ (next : Nat) (m' : Importer ListedLines MemoryStore KeyHandle),
      m.loop place = m'.loop next ∧ m'.state = .lineStart ∧
        m'.Replayed d left (log ++ (entries.map RegistryEntry.write).map (KeyWrite.op handle.path))
          (some handle) := by
  induction hw generalizing m log place with
  | nil => exact ⟨place, m, rfl, hstate, by simpa using h⟩
  | @cons entry entries lines more head tail ih =>
      rw [List.append_assoc] at h
      obtain ⟨p, m₁, hhead, hstart, hset⟩ := entry_written place head h hstructured hstate
      obtain ⟨next, m₂, htail, hend, hreplayed⟩ := ih p hset hstart
      refine ⟨next, m₂, hhead.trans htail, hend, ?_⟩
      simpa using hreplayed

end Importer

end RegistryText
