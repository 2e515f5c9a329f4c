import RegistryText.Proofs.Import.Denied
import RegistryText.Proofs.Import.FirstLine
import RegistryText.Proofs.Import.RoundTrip

/-!
# The Windows 3.1 dialect line by line

In the Windows 3.1 dialect every line stands for itself: it opens a key below the classes root,
sets the default value of the key to a string, and the next key that is opened closes it.
`Windows31.block?` says which block a line stands for, if it stands for one.

**The log of an import is the concatenation of the blocks of its lines** (`log_of_windows31`).
The last block is complete only when the run ends, so the induction over the lines speaks of the
store with its open key closed (`Windows31.Reached`).
-/

namespace RegistryText

/-! ### What a line stands for -/

namespace Windows31

/-- The path below the classes root, if a path is the full name of that root alone or goes on
with a backslash. -/
def below? (path : Text) : Option Text :=
  match Text.after? Importer.classesRootToken path with
  | none => none
  | some [] => some []
  | some (c :: below) => if c = '\\' then some below else none

/-- The block that a line stands for. -/
def block? (line : Text) : Option KeyBlock :=
  (below? (line.takeWhile fun c => !isWhiteSpace c)).map fun below =>
    ⟨canonicalPath .classesRoot below, [⟨none, .string,
      stringData (Importer.windows31Value (line.dropWhile fun c => !isWhiteSpace c))⟩]⟩

/-- The calls that lines stand for. -/
def ops (lines : List Text) : List StoreOp :=
  (lines.filterMap block?).flatMap KeyBlock.ops

theorem ops_cons (line : Text) (lines : List Text) :
    ops (line :: lines) = (block? line).toList.flatMap KeyBlock.ops ++ ops lines := by
  cases hblock : block? line <;> simp [ops, hblock]

/-- A longer name than that of the classes root, which begins like it, is none of a root. -/
theorem not_isNamed (root : RootKey) (c : Char) (more : Text) :
    root.isNamed (Importer.classesRootToken ++ c :: more) = false := by
  have hname : ∀ name : Text, name = root.name ∨ name = root.shortName →
      (name.map Text.asciiLower).take 17 = Importer.classesRootToken.map Text.asciiLower →
        name.length ≤ 17 := by
    cases root <;> rintro name (rfl | rfl) <;> decide
  have hdiffers : ∀ name : Text, name = root.name ∨ name = root.shortName →
      Text.sameIgnoringAsciiCase (Importer.classesRootToken ++ c :: more) name = false := by
    intro name hof
    refine Bool.eq_false_iff.mpr fun hsame => ?_
    have heq : (Importer.classesRootToken ++ c :: more).map Text.asciiLower =
        name.map Text.asciiLower := by simpa [Text.sameIgnoringAsciiCase] using hsame
    have hlength := congrArg List.length heq
    have hshort := hname name hof (by rw [← heq]; rfl)
    simp only [List.length_map, List.length_append, List.length_cons] at hlength
    have htoken : Importer.classesRootToken.length = 17 := rfl
    omega
  rw [RootKey.isNamed, hdiffers _ (Or.inl rfl), hdiffers _ (Or.inr rfl)]
  rfl

/-- A path that begins with the full name of the classes root names this root or none. -/
theorem split?_eq {path rest : Text} (h : Text.after? Importer.classesRootToken path = some rest) :
    RootKey.split? path = (below? path).map fun below => (.classesRoot, below) := by
  have hplain : ∀ c ∈ Importer.classesRootToken, decide (c ≠ '\\') = true :=
    List.all_eq_true.mp (by decide)
  have hpath := Text.after?_eq_some_iff.mp h
  have htoken : path.takeWhile (fun c => decide (c ≠ '\\')) =
      Importer.classesRootToken ++ rest.takeWhile (fun c => decide (c ≠ '\\')) := by
    rw [hpath, List.takeWhile_append_of_pos hplain]
  have hbelow : path.dropWhile (fun c => decide (c ≠ '\\')) =
      rest.dropWhile (fun c => decide (c ≠ '\\')) := by
    rw [hpath, List.dropWhile_append_of_pos hplain]
  have hfound : RootKey.all.find? (·.isNamed Importer.classesRootToken) = some .classesRoot := by
    decide
  rw [RootKey.split?, htoken, hbelow, below?, h]
  cases rest with
  | nil => simpa using hfound
  | cons c below =>
      by_cases hc : c = '\\'
      · simpa [hc] using hfound
      · simp [hc, not_isNamed]

/-- What a line states, said with its block. -/
theorem ofWindows31_eq (line : Text) :
    (Reading.ofWindows31 line = { statement := .nothing } ∧ block? line = none) ∨
      ∃ path data, Reading.ofWindows31 line = { statement := .entry path ⟨none, .string, data⟩ } ∧
        (RootKey.split? path = none ∧ block? line = none ∨
          ∃ below, RootKey.split? path = some (.classesRoot, below) ∧
            block? line = some ⟨canonicalPath .classesRoot below, [⟨none, .string, data⟩]⟩) := by
  have hplain : ∀ c ∈ Importer.classesRootToken, (!isWhiteSpace c) = true :=
    List.all_eq_true.mp (by decide)
  cases hstart : Text.after? Importer.classesRootToken line with
  | none =>
      left
      have hnone : below? (line.takeWhile fun c => !isWhiteSpace c) = none := by
        cases hafter : Text.after? Importer.classesRootToken
            (line.takeWhile fun c => !isWhiteSpace c) with
        | none => rw [below?, hafter]
        | some rest =>
            have hline : line = Importer.classesRootToken ++
                (rest ++ line.dropWhile fun c => !isWhiteSpace c) := by
              rw [← List.append_assoc, ← Text.after?_eq_some_iff.mp hafter,
                List.takeWhile_append_dropWhile]
            rw [Text.after?_eq_some_iff.mpr hline] at hstart
            cases hstart
      exact ⟨by simp [Reading.ofWindows31, Text.startsWith, hstart], by simp [block?, hnone]⟩
  | some more =>
      right
      have hafter : Text.after? Importer.classesRootToken
          (line.takeWhile fun c => !isWhiteSpace c) =
            some (more.takeWhile fun c => !isWhiteSpace c) := by
        rw [Text.after?_eq_some_iff.mp hstart, List.takeWhile_append_of_pos hplain]
        exact Text.after?_eq_some_iff.mpr rfl
      refine ⟨_, _, by simp only [Reading.ofWindows31, Text.startsWith, hstart]; rfl, ?_⟩
      have hsplit := split?_eq hafter
      cases hbelow : below? (line.takeWhile fun c => !isWhiteSpace c) with
      | none => exact Or.inl ⟨by rw [hsplit, hbelow]; rfl, by rw [block?, hbelow]; rfl⟩
      | some below =>
          exact Or.inr ⟨below, by rw [hsplit, hbelow]; rfl, by rw [block?, hbelow]; rfl⟩

/-- **A text behind an equals sign with one space on each side is kept as it is.** -/
theorem block?_assigned {path : Text} (hpath : ∀ c ∈ path, isWhiteSpace c = false) (v : Text) :
    block? (path ++ " = ".toList ++ v) = (below? path).map fun below =>
      ⟨canonicalPath .classesRoot below, [⟨none, .string, stringData v⟩]⟩ := by
  have hkept : ∀ c ∈ path, (!isWhiteSpace c) = true := fun c hc => by rw [hpath c hc]; rfl
  have hline : path ++ " = ".toList ++ v = path ++ ' ' :: '=' :: ' ' :: v := by
    rw [List.append_assoc]
    rfl
  have htaken : (' ' :: '=' :: ' ' :: v).takeWhile (fun c => !isWhiteSpace c) = [] :=
    List.takeWhile_cons_of_neg (by decide)
  have hleft : (' ' :: '=' :: ' ' :: v).dropWhile (fun c => !isWhiteSpace c) =
      ' ' :: '=' :: ' ' :: v := List.dropWhile_cons_of_neg (by decide)
  have hvalue : Importer.windows31Value (' ' :: '=' :: ' ' :: v) = v := by
    have hblank : ∀ c ∈ [' '], isBlank c = true := List.all_eq_true.mp (by decide)
    have hskip : Text.skipBlanks (' ' :: '=' :: ' ' :: v) = '=' :: ' ' :: v :=
      Text.skipBlanks_append hblank ('=' :: ' ' :: v)
    rw [Importer.windows31Value, hskip]
    rfl
  rw [block?, hline, List.takeWhile_append_of_pos hkept, List.dropWhile_append_of_pos hkept,
    htaken, hleft, List.append_nil, hvalue]

/-! ### What a run makes of it -/

section Run

open Importer

variable {m m' : Importer ListedLines MemoryStore KeyHandle} {left : List Text}
  {log : List StoreOp}

/-- The importer stands in front of `left`, and with its key closed the log is `log`. -/
structure Reached (left : List Text) (log : List StoreOp)
    (m : Importer ListedLines MemoryStore KeyHandle) : Prop where
  lines : m.lines.left = left
  state : m.state = .windows31Line
  dialect : m.dialect = some .windows31
  holds : m.closeKey.store.Holds log none

theorem Reached.front (h : Reached left log m) : m.front = .windows31Line :=
  if_pos h.dialect

/-- Nothing that a later turn looks at has changed. -/
theorem Reached.settled (h : Reached left log m) (hsame : m'.anew m'.state = m.anew m.state) :
    Reached left log m' := by
  obtain ⟨hlines, hstore, hkey, hstate, hdialect, hreport⟩ := anew_eq_iff.mp hsame
  exact {
    lines := by rw [hlines, h.lines]
    state := hstate.trans h.state
    dialect := hdialect.trans h.dialect
    holds := store_closeKey_congr hkey hstore ▸ h.holds }

/-- The key of a block is opened, its value is set, and closing it completes the block. -/
theorem holds_entry (h : m.closeKey.store.Holds log none) {path below : Text} {root : RootKey}
    (hroot : RootKey.split? path = some (root, below)) (w : KeyWrite) :
    ((m.openKey path).2.write w).closeKey.store.Holds
      (log ++ KeyBlock.ops ⟨canonicalPath root below, [w]⟩) none := by
  obtain ⟨key, opened, hopen, hpath, hopened⟩ := h.openKey root below
  obtain ⟨set, hset, hwritten⟩ := hopened.setValue w.name w.type w.data
  have hwrite : ((m.openKey path).2.write w).key = some key ∧
      ((m.openKey path).2.write w).store = set := by
    have hset' : RegistryStore.setValue opened key w.name w.type w.data = (.ok (), set) := hset
    simp only [openKey_eq m hroot hopen, Importer.write, hset', and_self]
  have hclosed : ((m.openKey path).2.write w).closeKey.store = set.closeKey key := by
    simp only [Importer.closeKey, hwrite.1, hwrite.2]
    rfl
  rw [hclosed]
  simpa [KeyBlock.ops, KeyWrite.op, hpath] using hwritten.closeKey

/-- Without a root no key is opened and no value is set. -/
theorem holds_unknownRoot (h : m.closeKey.store.Holds log none) {path : Text}
    (hroot : RootKey.split? path = none) (w : KeyWrite) :
    ((m.openKey path).2.write w).closeKey.store.Holds log none := by
  have hkey : m.closeKey.key = none := by
    cases hheld : m.key <;> simp [Importer.closeKey, hheld]
  have hnone : (m.openKey path).2.key = none := by
    rw [openKey_of_unknownRoot m hroot]
    exact hkey
  have hwrite : (m.openKey path).2.write w = (m.openKey path).2 := by
    simp only [Importer.write, hnone]
  have hclosed : (m.openKey path).2.closeKey.store = (m.openKey path).2.store := by
    simp only [Importer.closeKey, hnone]
  rw [hwrite, hclosed, openKey_of_unknownRoot m hroot]
  exact h

/-- **A line that is taken adds its block.** -/
theorem Reached.obey (h : Reached left log m) (line : Text) :
    (m.obey (.ofWindows31 line)).1 = .proceed 0 ∧
      Reached left (log ++ (block? line).toList.flatMap KeyBlock.ops)
        (m.obey (.ofWindows31 line)).2 := by
  rcases ofWindows31_eq line with ⟨hread, hblock⟩ | ⟨path, data, hread, hblock⟩ <;>
    rw [hread, Importer.obey, List.map_nil, note_nil]
  · rw [hblock]
    exact ⟨rfl, by simpa [Importer.carryOut] using h⟩
  have hentered : ∀ {log' : List StoreOp},
      ((m.openKey path).2.write ⟨none, .string, data⟩).closeKey.store.Holds log' none →
        Reached left log' ((m.openKey path).2.write ⟨none, .string, data⟩) := fun hholds => {
    lines := by rw [lines_write, lines_openKey, h.lines]
    state := by rw [state_write, state_openKey, h.state]
    dialect := by rw [dialect_write, dialect_openKey, h.dialect]
    holds := hholds }
  rcases hblock with ⟨hroot, hblock⟩ | ⟨below, hroot, hblock⟩ <;> rw [hblock]
  · exact ⟨rfl, hentered (by simpa using holds_unknownRoot h.holds hroot _)⟩
  · exact ⟨rfl, hentered (by simpa using holds_entry h.holds hroot _)⟩

/-- The turn that takes a line adds its block. -/
theorem Reached.turn {line : Text} (h : Reached (line :: left) log m) (place : Nat) :
    ∃ next m', m.turn place = (.proceed next, m') ∧
      Reached left (log ++ (block? line).toList.flatMap KeyBlock.ops) m' := by
  have hclosed : ((m.took line left).anew .windows31Line).closeKey.store = m.closeKey.store :=
    store_closeKey_congr rfl rfl
  have htaken : Reached left log ((m.took line left).anew .windows31Line) :=
    ⟨rfl, rfl, h.dialect, hclosed ▸ h.holds⟩
  obtain ⟨hprogress, hobeyed⟩ := htaken.obey line
  have hturn := turn_of_line (h.state.trans h.front.symm) (fetch_cons h.lines) place
  rw [h.front] at hturn
  rcases hend : m.turn place with ⟨progress, m'⟩
  rw [hend] at hturn
  have hunplaced : progress.unplaced = .proceed 0 :=
    (congrArg Prod.fst hturn).trans (congrArg Progress.unplaced hprogress)
  cases progress with
  | proceed next => exact ⟨next, m', rfl, hobeyed.settled (congrArg Prod.snd hturn)⟩
  | finished => cases hunplaced
  | failed e => cases hunplaced

/-- **The loop adds the blocks of all lines**, by induction on the lines. -/
theorem Reached.loop (h : Reached left log m) (place : Nat) :
    (m.loop place).1 = .ok () ∧ Reached [] (log ++ ops left) (m.loop place).2 := by
  induction left generalizing m log place with
  | nil =>
      have hturn : m.turn place = (.finished, m) :=
        turn_of_end (h.state.trans h.front.symm) (fetch_nil h.lines)
      rw [loop_of_last_turn hturn]
      exact ⟨rfl, by simpa [ops] using h⟩
  | cons line left ih =>
      obtain ⟨next, m', hturn, hreached⟩ := h.turn place
      rw [loop_of_turn hturn, ops_cons, ← List.append_assoc]
      exact ih hreached next

/-- A run of the lines of a file leaves the blocks of its body in the log. -/
theorem run_ofLines (encoding : FileEncoding) {header : Text} (body : List Text)
    (hheader : Dialect.ofHeader header = .windows31) :
    (ofLines (κ := KeyHandle) encoding (header :: body) ({} : MemoryStore)).run.1 = .ok () ∧
      (ofLines (κ := KeyHandle) encoding (header :: body) ({} : MemoryStore)).run.2.store.Holds
        (ops body) none := by
  let m := ofLines (κ := KeyHandle) encoding (header :: body) ({} : MemoryStore)
  have hclassify : (m.took header body).classify =
      (.proceed 0, ((m.took header body).named .windows31).enter .windows31Line) := by
    have hline : Dialect.ofHeader (m.took header body).line = .windows31 := hheader
    simp only [classify, hline]
    rfl
  have hturn : m.turn 0 =
      (.proceed 0, ((m.took header body).named .windows31).enter .windows31Line) := by
    rw [turn_header rfl, headerStep, fetch_cons rfl]
    exact hclassify
  have hreached : Reached body [] (((m.took header body).named .windows31).enter .windows31Line) :=
    ⟨rfl, rfl, rfl, MemoryStore.holds_empty⟩
  have hloop := (hreached.loop 0).2
  rw [← loop_of_turn hturn] at hloop
  refine ⟨?_, ?_⟩
  · have hrun := run_of_header (m := m) rfl
      (Prod.ext (ListedLines.next_first (header :: body)).1 rfl) not_isReadFailure_listed
    rw [hrun]
    simp only [headerOutcome, List.head?_cons, Option.getD_some, hheader]
  · rw [store_run]
    exact hloop.holds

end Run

end Windows31

/-- **The Windows 3.1 dialect is replayed line by line.**  Take a file whose first line is the
header of the dialect.  Its import into an empty store that denies nothing succeeds, and the log
is the concatenation, over the lines of the body in order, of the calls of their blocks: a line
whose part in front of the first white space is the full name of the classes root, alone or in
front of a backslash, opens a key, sets its default value to a string, and the key is closed; any
other line adds nothing.  Where a path without white space and a text are joined by an equals sign
with a space on each side, the string is the text as it stands. -/
theorem log_of_windows31 {source : Source} {bytes : Bytes} (h : source.Delivers bytes)
    (options : ImportOptions) {header : Text} {body : List Text}
    (hlines : fileLines options.page bytes = header :: body)
    (hheader : Dialect.ofHeader header = .windows31) :
    (∃ view, importView source ({} : MemoryStore) options = .ok view ∧ view.outcome = .ok () ∧
      view.store.log = (body.filterMap Windows31.block?).flatMap KeyBlock.ops) ∧
      ∀ path v : Text, (∀ c ∈ path, isWhiteSpace c = false) →
        Windows31.block? (path ++ " = ".toList ++ v) = (Windows31.below? path).map fun below =>
          ⟨canonicalPath .classesRoot below, [⟨none, .string, stringData v⟩]⟩ := by
  have hlong : 2 ≤ bytes.length := two_le_of_mem_fileLines (hlines ▸ List.mem_cons_self)
    (Importer.two_le_of_isImportable (by rw [hheader]; rfl))
  obtain ⟨houtcome, hholds⟩ := Windows31.run_ofLines (fileEncoding bytes) body hheader
  refine ⟨⟨Importer.view (Importer.ofLines (κ := KeyHandle) (fileEncoding bytes)
    (header :: body) ({} : MemoryStore)).run, ?_, houtcome, hholds.log⟩,
    fun path v hpath => Windows31.block?_assigned hpath v⟩
  rw [importView_of_delivers h, viewOfBytes, if_neg (Nat.not_lt.mpr hlong), hlines]

/-- A value with blanks, signs and a second space in it, a line with a blank in front, a longer
name than that of the root, another root, and the root alone with a value without a sign. -/
def windows31Text : Text :=
  "REGEDIT\nHKEY_CLASSES_ROOT\\.a =  =\"\\;\t \n HKEY_CLASSES_ROOT = b\n".toList ++
    "HKEY_CLASSES_ROOTS = c\nHKEY_CURRENT_USER\\d = e\nHKEY_CLASSES_ROOT\tplain\n".toList

/-- Two of its lines stand for blocks. -/
theorem log_of_windows31Text :
    ∃ view, importView (.ofBytes (Utf8.encode windows31Text)) ({} : MemoryStore) {} = .ok view ∧
      view.outcome = .ok () ∧ view.store.log =
        [.openKey "HKEY_CLASSES_ROOT\\.a".toList,
          .setValue "HKEY_CLASSES_ROOT\\.a".toList none .string (stringData " =\"\\;\t ".toList),
          .closeKey "HKEY_CLASSES_ROOT\\.a".toList, .openKey "HKEY_CLASSES_ROOT".toList,
          .setValue "HKEY_CLASSES_ROOT".toList none .string (stringData "plain".toList),
          .closeKey "HKEY_CLASSES_ROOT".toList] := by
  have hlines : fileLines (.singleByte .windows1252) (Utf8.encode windows31Text) =
      "REGEDIT".toList :: ["HKEY_CLASSES_ROOT\\.a".toList ++ " = ".toList ++ " =\"\\;\t ".toList,
        " HKEY_CLASSES_ROOT = b".toList, "HKEY_CLASSES_ROOTS = c".toList,
        "HKEY_CURRENT_USER\\d = e".toList, "HKEY_CLASSES_ROOT\tplain".toList] := by decide +kernel
  obtain ⟨⟨view, hview, houtcome, hlog⟩, hkept⟩ :=
    log_of_windows31 (Source.delivers_ofBytes (Utf8.encode windows31Text)) {} hlines (by decide)
  have hplain : ∀ c ∈ "HKEY_CLASSES_ROOT\\.a".toList, isWhiteSpace c = false := by
    simpa using List.all_eq_true.mp
      (show ("HKEY_CLASSES_ROOT\\.a".toList.all fun c => !isWhiteSpace c) = true by decide)
  have hassigned := hkept "HKEY_CLASSES_ROOT\\.a".toList " =\"\\;\t ".toList hplain
  refine ⟨view, hview, houtcome, ?_⟩
  rw [hlog, List.filterMap_cons, hassigned]
  decide +kernel

end RegistryText
