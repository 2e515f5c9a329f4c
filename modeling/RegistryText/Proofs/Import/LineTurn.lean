import RegistryText.Proofs.Import.ByteDependence
import RegistryText.Proofs.Import.Handles
import RegistryText.Proofs.Import.Lockstep
import RegistryText.Proofs.Import.ValueLine
import RegistryText.Proofs.Store.Memory

/-!
# The turn of a line

An *opening line* of a structured file begins with a bracket and names a key, and the
name begins with neither a blank nor the minus sign of a deletion.  A `LineTurn` is what
an import does with one line and the lines that continue it: its calls of the store and
the problems that it notes.  `Serves` says what these are.  **An opening line is one
attempt to open its key; any other line makes no attempt, and sets a value of the open
key if it is a value line** (`comesTo_turn`).
-/

namespace RegistryText

/-- Whether a path begins with neither a blank nor a minus sign. -/
def isOpenable (path : Text) : Bool :=
  path.head?.all fun c => !isBlank c && c != '-'

/-- The path of an opening line: what stands between the first character that is no
blank, a bracket, and the last closing bracket of the line. -/
def openingPath? (line : Text) : Option Text :=
  match line.skipBlanks with
  | '[' :: rest => (Text.beforeLast? ']' rest).filter isOpenable
  | _ => none

theorem ofBracket_key_iff {rest path : Text} :
    (Reading.ofBracket rest).statement = .key path ↔
      (Text.beforeLast? ']' rest).filter isOpenable = some path := by
  rw [Reading.ofBracket, Importer.bracketed?]
  cases hlast : Text.beforeLast? ']' rest with
  | none => simp
  | some name =>
      obtain ⟨behind, rfl, -⟩ := Text.eq_of_beforeLast? hlast
      rw [Option.filter_some]
      cases name with
      | nil =>
          have hbracket : isBlank ']' = false := by decide
          simp [hbracket, Text.after?, isOpenable]
      | cons c name =>
          by_cases hblank : isBlank c = true
          · simp [hblank, isOpenable]
          · by_cases hminus : c = '-'
            · subst hminus
              simp [hblank, Text.after?, isOpenable]
            · simp [hblank, Text.after?, isOpenable, hminus, Ne.symm hminus]

/-- **The opening lines are the lines that state a key.** -/
theorem ofLine_key_iff {line path : Text} :
    (Reading.ofLine line).statement = .key path ↔ openingPath? line = some path := by
  have hassigns : ∀ r : Reading, r.statement.IsAssignment → r.statement ≠ .key path := by
    intro r h heq
    rw [heq] at h
    exact h
  unfold Reading.ofLine openingPath?
  split
  next rest hline =>
    rw [hline]
    exact ofBracket_key_iff
  next rest hline => simpa [hline] using hassigns _ (Reading.isAssignment_ofAssignment none rest)
  next rest hline => simpa [hline] using hassigns _ (Reading.isAssignment_ofQuoted rest)
  next hbracket _ _ =>
    split
    next rest hline => exact absurd hline (hbracket rest)
    next => simp

/-- An opening line states its key and nothing else. -/
theorem ofLine_of_opening {line path : Text} (h : openingPath? line = some path) :
    Reading.ofLine line = { statement := .key path } := by
  have hstates := ofLine_key_iff.mpr h
  have hbracket : ∀ rest, (Reading.ofBracket rest).unknown = [] := by
    intro rest
    unfold Reading.ofBracket
    split
    · rfl
    · split <;> rfl
  have hunknown : (Reading.ofLine line).unknown = [] := by
    unfold openingPath? at h
    split at h
    next rest hline =>
      rw [Reading.ofLine, hline]
      exact hbracket rest
    next => cases h
  rw [← hstates, ← hunknown]

/-- An attempt to open the key of a path: the calls that it makes, but for closing the
key that was open, and the problems that it notes. -/
inductive OpenAttempt (path : Text) : List (StoreCall KeyHandle) → List DiagnosticKind → Prop
  | unknownRoot (hroot : RootKey.split? path = none) :
      OpenAttempt path [] [.keyOpenFailed path (.unknownRootKey path)]
  | refused {root : RootKey} {below : Text} {cause : StoreError}
      (hroot : RootKey.split? path = some (root, below)) :
      OpenAttempt path [.openKey root below (.error cause)] [.keyOpenFailed path cause]
  | opened {root : RootKey} {below : Text} {key : KeyHandle}
      (hroot : RootKey.split? path = some (root, below))
      (hpath : key.path = canonicalPath root below) (hslot : key.slot = slotOf key.path) :
      OpenAttempt path [.openKey root below (.ok key)] []

/-- What an import does with a line and the lines that continue it. -/
structure LineTurn where
  /-- The line that is taken first. -/
  line : Text
  /-- The lines that are taken to continue a list of bytes. -/
  taken : List Text
  /-- The calls of the store. -/
  calls : List (StoreCall KeyHandle)
  /-- The problems. -/
  noted : List DiagnosticKind

namespace LineTurn

/-- The lines of a turn. -/
def lines (t : LineTurn) : List Text :=
  t.line :: t.taken

/-- Whether the line is an opening line. -/
def isOpening (t : LineTurn) : Bool :=
  (openingPath? t.line).isSome

/-- The key that was opened. -/
def opened? (t : LineTurn) : Option KeyHandle :=
  t.calls.findSome? StoreCall.opened?

/-- The key that the last opening line has opened, if it has; `held` without an opening
line. -/
def lastKey (held : Option KeyHandle) (turns : List LineTurn) : Option KeyHandle :=
  match (turns.filter isOpening).getLast? with
  | none => held
  | some t => t.opened?

/-- What a line does while a key is open or none is. -/
structure Serves (held : Option KeyHandle) (t : LineTurn) : Prop where
  /-- An opening line closes the open key and is one attempt to open another one. -/
  opens : ∀ path, openingPath? t.line = some path → t.taken = [] ∧
    ∃ made, OpenAttempt path made t.noted ∧
      t.calls = (held.map StoreCall.closeKey).toList ++ made
  /-- No other line is an attempt to open a key. -/
  fails : openingPath? t.line = none → ∀ path cause, .keyOpenFailed path cause ∉ t.noted
  /-- Any other line is a value line and sets its value in the open key, or makes no
  call. -/
  sets : openingPath? t.line = none → ∀ key ∈ held,
    (∃ w answer, ValueLine t.line t.taken w ∧
      t.calls = [.setValue key w.name w.type w.data answer]) ∨
    (¬∃ w, ValueLine t.line t.taken w) ∧ t.calls = []
  /-- Without an open key it makes no call. -/
  lost : openingPath? t.line = none → held = none → t.calls = []

/-- The last opening line is among the later turns, or it is the first turn. -/
theorem lastKey_cons (held : Option KeyHandle) (t : LineTurn) (turns : List LineTurn) :
    lastKey held (t :: turns) = lastKey (lastKey held [t]) turns := by
  unfold lastKey
  cases hopening : t.isOpening with
  | false => simp [hopening]
  | true =>
      cases hlater : turns.filter isOpening with
      | nil => simp [hopening, hlater]
      | cons later more => simp [hopening, hlater, List.getLast?_cons]

end LineTurn

/-- How the lines that continue a list end, the lines that are taken for it, and the lines
that are left. -/
inductive ListTaken (bytes : Bytes) : ListEnd → List Text → List Text → Prop
  | complete {taken : List Text} (rest : List Text) {more : Bytes}
      (hmore : HexList.Continued taken more) :
      ListTaken bytes (.complete (bytes ++ more)) taken rest
  | malformed {taken : List Text} (rest : List Text)
      (hnone : ∀ more, ¬HexList.Continued taken more) : ListTaken bytes .malformed taken rest
  | missing {taken : List Text} (hnone : ∀ more, ¬HexList.Continued taken more) :
      ListTaken bytes .missing taken []

namespace ListTaken

variable {bytes more : Bytes} {ending : ListEnd} {taken rest : List Text} {line : Text}

/-- A comment in front changes nothing. -/
theorem comment (hcomment : line.skipBlanks.head? = some ';')
    (h : ListTaken bytes ending taken rest) : ListTaken bytes ending (line :: taken) rest := by
  have hnot : (∀ more, ¬HexList.Continued taken more) →
      ∀ more, ¬HexList.Continued (line :: taken) more := by
    intro hnone more hmore
    cases hmore with
    | comment _ tail => exact hnone _ tail
    | last hlist _ => exact hlist hcomment
    | more hlist _ _ => exact hlist hcomment
  cases h with
  | complete rest hmore => exact .complete rest (.comment hcomment hmore)
  | malformed rest hnone => exact .malformed rest (hnot hnone)
  | missing hnone => exact .missing (hnot hnone)

/-- A line that is continued adds its bytes in front. -/
theorem continued (hlist : line.skipBlanks.head? ≠ some ';')
    (hread : HexList.readLine line = (some .continued, more))
    (h : ListTaken (bytes ++ more) ending taken rest) :
    ListTaken bytes ending (line :: taken) rest := by
  have hnot : (∀ more, ¬HexList.Continued taken more) →
      ∀ more, ¬HexList.Continued (line :: taken) more := by
    intro hnone more hmore
    cases hmore with
    | comment hcomment _ => exact hlist hcomment
    | last _ hspelled =>
        rw [HexList.readLine_eq_some_iff.mpr hspelled] at hread
        cases hread
    | more _ _ tail => exact hnone _ tail
  cases h with
  | complete rest hmore =>
      rw [List.append_assoc]
      exact .complete rest (.more hlist (HexList.readLine_eq_some_iff.mp hread) hmore)
  | malformed rest hnone => exact .malformed rest (hnot hnone)
  | missing hnone => exact .missing (hnot hnone)

/-- A line that is no part of a list ends it. -/
theorem ofMalformed (hread : (HexList.readLine line).1 = none) (rest : List Text) :
    ListTaken bytes .malformed [line] rest := by
  refine .malformed rest fun more hmore => ?_
  cases hmore with
  | comment _ tail => cases tail
  | last _ hspelled =>
      rw [HexList.readLine_eq_some_iff.mpr hspelled] at hread
      cases hread
  | more _ _ tail => cases tail

end ListTaken

namespace Importer

section Lines

variable {ρ σ κ : Type} [LineSupply ρ] {R : ρ → ListedLines → Prop} {m : Importer ρ σ κ}
  {left : List Text} {given : Nat}

/-- The first of the listed lines is taken. -/
theorem fetch_of_listed (hR : LineSupply.Alike R) (h : R m.lines ⟨left, given⟩) :
    (left = [] ∧ ∃ m', m.fetch = (.ok false, m') ∧ R m'.lines ⟨[], given⟩) ∨
      ∃ line rest m', left = line :: rest ∧ m.fetch = (.ok true, m') ∧ m'.line = line ∧
        R m'.lines ⟨rest, given + 1⟩ := by
  obtain ⟨rest', hnext, hrest⟩ := hR.next h
  rcases hm : LineSupply.next m.lines with ⟨answer, rest⟩
  rw [hm] at hnext hrest
  cases left with
  | nil =>
      cases hnext
      exact Or.inl ⟨rfl, _, by rw [fetch, hm], hrest⟩
  | cons line left =>
      cases hnext
      exact Or.inr ⟨line, left, _, rfl, by rw [fetch, hm], rfl, hrest⟩

/-- The lines of a list are the first ones of those that are left. -/
theorem taken_of_gather (hR : LineSupply.Alike R) (h : R m.lines ⟨left, given⟩) (bytes : Bytes) :
    ∃ taken rest given', left = taken ++ rest ∧ R (m.gather bytes).2.lines ⟨rest, given'⟩ ∧
      ListTaken bytes (m.gather bytes).1 taken rest := by
  fun_induction gather m bytes generalizing left given with
  | case1 m bytes e m' hfetch =>
      rcases fetch_of_listed hR h with ⟨-, n, hn, -⟩ | ⟨line, rest, n, -, hn, -, -⟩ <;>
        rw [hfetch] at hn <;> cases hn
  | case2 m bytes m' hfetch =>
      rcases fetch_of_listed hR h with ⟨rfl, n, hn, hrest⟩ | ⟨line, rest, n, -, hn, -, -⟩ <;>
        rw [hfetch] at hn <;> cases hn
      exact ⟨[], [], given, rfl, hrest, .missing fun more hmore => by cases hmore⟩
  | case3 m bytes m' hfetch hless hcomment ih =>
      rcases fetch_of_listed hR h with ⟨-, n, hn, -⟩ | ⟨line, rest, n, rfl, hn, rfl, hrest⟩ <;>
        rw [hfetch] at hn <;> cases hn
      obtain ⟨taken, rest, given', rfl, hafter, htaken⟩ := ih hrest
      exact ⟨_ :: taken, rest, given', rfl, hafter,
        htaken.comment (Text.startsWith_singleton_iff.mp hcomment)⟩
  | case4 m bytes m' hfetch hless hlist more hread =>
      rcases fetch_of_listed hR h with ⟨-, n, hn, -⟩ | ⟨line, rest, n, rfl, hn, rfl, hrest⟩ <;>
        rw [hfetch] at hn <;> cases hn
      rw [HexList.readLine_skipBlanks] at hread
      exact ⟨[_], rest, given + 1, rfl, hrest,
        .ofMalformed (congrArg Prod.fst hread) rest⟩
  | case5 m bytes m' hfetch hless hlist more hread =>
      rcases fetch_of_listed hR h with ⟨-, n, hn, -⟩ | ⟨line, rest, n, rfl, hn, rfl, hrest⟩ <;>
        rw [hfetch] at hn <;> cases hn
      rw [HexList.readLine_skipBlanks] at hread
      exact ⟨[_], rest, given + 1, rfl, hrest,
        .complete rest (.last (mt Text.startsWith_singleton_iff.mpr hlist)
          (HexList.readLine_eq_some_iff.mp hread))⟩
  | case6 m bytes m' hfetch hless hlist more hread ih =>
      rcases fetch_of_listed hR h with ⟨-, n, hn, -⟩ | ⟨line, rest, n, rfl, hn, rfl, hrest⟩ <;>
        rw [hfetch] at hn <;> cases hn
      rw [HexList.readLine_skipBlanks] at hread
      obtain ⟨taken, rest, given', rfl, hafter, htaken⟩ := ih hrest
      exact ⟨_ :: taken, rest, given', rfl, hafter,
        htaken.continued (mt Text.startsWith_singleton_iff.mpr hlist) hread⟩

end Lines

variable {ρ : Type}

/-- The problems that have been noted. -/
def kinds (m : Importer ρ RecordedMemory KeyHandle) : List DiagnosticKind :=
  m.report.diagnostics.map Diagnostic.kind

/-- A turn was made between two moments. -/
structure Made (t : LineTurn) (m m' : Importer ρ RecordedMemory KeyHandle) : Prop where
  calls : m'.store.calls = m.store.calls ++ t.calls
  noted : m'.kinds = m.kinds ++ t.noted
  key : m'.key = LineTurn.lastKey m.key [t]
  serves : t.Serves m.key

variable [LineSupply ρ] {m n : Importer ρ RecordedMemory KeyHandle}

theorem kinds_note (m : Importer ρ RecordedMemory KeyHandle) (noted : List DiagnosticKind) :
    (m.note noted).kinds = m.kinds ++ noted := by
  simp [kinds, note, Function.comp_def]

omit [LineSupply ρ] in
theorem kinds_closeKey (m : Importer ρ RecordedMemory KeyHandle) :
    m.closeKey.kinds = m.kinds ∧ m.closeKey.key = none := by
  cases hkey : m.key <;> simp [closeKey, kinds, hkey]

/-- Only problems have been noted between two moments, and none of them is that a key could
not be opened. -/
structure Noting (noted : List DiagnosticKind) (m n : Importer ρ RecordedMemory KeyHandle) :
    Prop where
  store : n.store = m.store
  key : n.key = m.key
  kinds : n.kinds = m.kinds ++ noted
  fails : ∀ path cause, .keyOpenFailed path cause ∉ noted

namespace Noting

variable {noted : List DiagnosticKind}

omit [LineSupply ρ] in
theorem refl (m : Importer ρ RecordedMemory KeyHandle) : Noting [] m m :=
  ⟨rfl, rfl, (List.append_nil _).symm, by simp⟩

theorem note (h : Noting noted m n) {more : List DiagnosticKind}
    (hmore : ∀ path cause, .keyOpenFailed path cause ∉ more) :
    Noting (noted ++ more) m (n.note more) where
  store := h.store
  key := h.key
  kinds := by rw [kinds_note, h.kinds, List.append_assoc]
  fails path cause hmem := by
    rcases List.mem_append.mp hmem with hmem | hmem
    · exact h.fails path cause hmem
    · exact hmore path cause hmem

/-- Taking the lines of a list notes nothing. -/
theorem gather (h : Noting noted m n) (bytes : Bytes) : Noting noted m (n.gather bytes).2 := by
  obtain ⟨-, -, -, -, hkey, hstore⟩ := n.kept_of_gather bytes
  have hkinds : (n.gather bytes).2.kinds = n.kinds :=
    congrArg (List.map Diagnostic.kind) (n.diagnostics_gather bytes)
  exact ⟨hstore.trans h.store, hkey.trans h.key, hkinds.trans h.kinds, h.fails⟩

end Noting

/-- Asking for a key is one attempt to open it. -/
theorem attempt_openKey (m : Importer ρ RecordedMemory KeyHandle) (path : Text) :
    ∃ made noted, OpenAttempt path made noted ∧
      (m.openKey path).2.store.calls =
        m.store.calls ++ ((m.key.map StoreCall.closeKey).toList ++ made) ∧
      (m.openKey path).2.kinds = m.kinds ++ noted ∧
      (m.openKey path).2.key = made.findSome? StoreCall.opened? := by
  obtain ⟨hkinds, hkey⟩ := m.kinds_closeKey
  have hresolve : RegistryStore.resolveRoot (κ := KeyHandle) m.closeKey.store path =
      RootKey.split? path := rfl
  simp only [openKey, requestKey, hresolve]
  cases hroot : RootKey.split? path with
  | none =>
      refine ⟨[], _, .unknownRoot hroot, ?_, ?_, ?_⟩
      · rw [List.append_nil]
        exact m.calls_closeKey
      · exact (kinds_note _ _).trans (congrArg (· ++ _) hkinds)
      · exact hkey
  | some split =>
      obtain ⟨root, below⟩ := split
      dsimp only
      rw [RecordingStore.openKey_keep]
      rcases hanswer : (RegistryStore.openKey m.closeKey.store.behind root below).1
        with cause | key
      · refine ⟨[.openKey root below (.error cause)], [.keyOpenFailed path cause],
          .refused hroot, ?_, ?_, ?_⟩
        · show (m.closeKey.store.keep _ _).calls = _
          rw [RecordingStore.calls_keep, calls_closeKey, List.append_assoc]
        · exact (kinds_note _ _).trans (congrArg (· ++ _) hkinds)
        · exact hkey
      · obtain ⟨hpath, hslot⟩ := MemoryStore.path_of_openKey hanswer
        refine ⟨[.openKey root below (.ok key)], [], .opened hroot hpath hslot, ?_, ?_, rfl⟩
        · show (m.closeKey.store.keep _ _).calls = _
          rw [RecordingStore.calls_keep, calls_closeKey, List.append_assoc]
        · rw [List.append_nil]
          exact hkinds

omit [LineSupply ρ] in
/-- A line that is no opening line and sets no value makes no call. -/
theorem made_silent {line : Text} {taken : List Text} {noted : List DiagnosticKind}
    (hnone : openingPath? line = none) (hvalue : ¬∃ w, ValueLine line taken w)
    (h : Noting noted m n) : ∃ t : LineTurn, t.line = line ∧ t.taken = taken ∧ Made t m n := by
  refine ⟨⟨line, taken, [], noted⟩, rfl, rfl, ?_, h.kinds, ?_, ?_⟩
  · rw [h.store, List.append_nil]
  · simp [LineTurn.lastKey, LineTurn.isOpening, hnone, h.key]
  · exact ⟨fun path hpath => absurd (hnone.symm.trans hpath) (by simp), fun _ => h.fails,
      fun _ _ _ => Or.inr ⟨hvalue, rfl⟩, fun _ _ => rfl⟩

/-- A value line makes one call, if a key is open. -/
theorem made_write {line : Text} {taken : List Text} {noted : List DiagnosticKind} {w : KeyWrite}
    (hnone : openingPath? line = none) (hvalue : ValueLine line taken w)
    (h : Noting noted m n) :
    ∃ t : LineTurn, t.line = line ∧ t.taken = taken ∧ Made t m (n.write w) := by
  obtain ⟨more, hmore, hrefusals⟩ : ∃ more, (n.write w).kinds = n.kinds ++ more ∧
      ∀ path cause, .keyOpenFailed path cause ∉ more := by
    unfold write
    split
    · exact ⟨[], (List.append_nil _).symm, by simp⟩
    · split
      · exact ⟨[], (List.append_nil _).symm, by simp⟩
      · exact ⟨_, kinds_note _ _, by simp⟩
  have hcalls : (n.write w).store.calls =
      m.store.calls ++ (m.key.map fun key => m.store.setCall key w).toList := by
    cases hopen : m.key with
    | none => simp [write, h.key, hopen, h.store]
    | some key =>
        rw [calls_write (h.key.trans hopen), h.store]
        rfl
  refine ⟨⟨line, taken, (m.key.map fun key => m.store.setCall key w).toList, noted ++ more⟩, rfl,
    rfl, hcalls, ?_, ?_, ?_⟩
  · rw [hmore, h.kinds, List.append_assoc]
  · rw [key_write, h.key]
    simp [LineTurn.lastKey, LineTurn.isOpening, hnone]
  · refine ⟨fun path hpath => absurd (hnone.symm.trans hpath) (by simp), ?_, ?_, ?_⟩
    · intro _ path cause hmem
      rcases List.mem_append.mp hmem with hmem | hmem
      · exact h.fails path cause hmem
      · exact hrefusals path cause hmem
    · intro _ key hopen
      have hopen' : m.key = some key := hopen
      exact Or.inl ⟨w, _, hvalue, by rw [hopen']; rfl⟩
    · intro _ hclosed
      simp [hclosed]

/-- An opening line is one attempt. -/
theorem made_openKey {line path : Text} (hopening : openingPath? line = some path)
    (m : Importer ρ RecordedMemory KeyHandle) :
    ∃ t : LineTurn, t.line = line ∧ t.taken = [] ∧ Made t m (m.openKey path).2 := by
  obtain ⟨made, noted, hattempt, hcalls, hkinds, hkey⟩ := m.attempt_openKey path
  have hclosing : ((m.key.map StoreCall.closeKey).toList ++ made).findSome?
      StoreCall.opened? = made.findSome? StoreCall.opened? := by
    cases m.key <;> rfl
  refine ⟨⟨line, [], (m.key.map StoreCall.closeKey).toList ++ made, noted⟩, rfl, rfl,
    ⟨hcalls, hkinds, ?_, ?_⟩⟩
  · simp [LineTurn.lastKey, LineTurn.isOpening, LineTurn.opened?, hopening, hclosing, hkey]
  · refine ⟨?_, ?_, ?_, ?_⟩
    · intro path' hpath
      obtain rfl : path = path' := Option.some.inj (hopening.symm.trans hpath)
      exact ⟨rfl, made, hattempt, rfl⟩
    all_goals
      intro hnone
      exact absurd (hopening.symm.trans hnone) (by simp)

/-- What an importer comes to by the turn of a line, when `left` are the lines behind
it. -/
def ComesTo (R : ρ → ListedLines → Prop) (line : Text) (left : List Text)
    (m : Importer ρ RecordedMemory KeyHandle)
    (r : Progress × Importer ρ RecordedMemory KeyHandle) : Prop :=
  ∃ (t : LineTurn) (rest : List Text) (given : Nat), t.line = line ∧ left = t.taken ++ rest ∧
    R r.2.lines ⟨rest, given⟩ ∧ Made t m r.2 ∧
    (r.1.unplaced = .proceed 0 ∨ r.1 = .finished ∧ rest = [])

variable {R : ρ → ListedLines → Prop} {line : Text} {left : List Text} {given : Nat}

omit [LineSupply ρ] in
/-- A turn that takes no further line. -/
theorem comesTo_alone (h : R m.lines ⟨left, given⟩) (hlines : n.lines = m.lines)
    (hmade : ∃ t : LineTurn, t.line = line ∧ t.taken = [] ∧ Made t m n) :
    ComesTo R line left m (.proceed 0, n) := by
  obtain ⟨t, hline, htaken, hmade⟩ := hmade
  exact ⟨t, left, given, hline, by rw [htaken]; rfl, hlines ▸ h, hmade, Or.inl rfl⟩

/-- The turn of a line that begins a list. -/
theorem comesTo_list (hR : LineSupply.Alike R) (h : R n.lines ⟨left, given⟩)
    {name : Option Text} {type : ValueType} {bytes : Bytes} {noted : List DiagnosticKind}
    (hnone : openingPath? line = none)
    (hvalue : ∀ {lines w}, (Statement.list name type bytes).Sets lines w ↔ ValueLine line lines w)
    (hnoting : Noting noted m n) :
    ComesTo R line left m (n.carryOut (.list name type bytes)) := by
  obtain ⟨taken, rest, given', rfl, hrest, htaken⟩ := taken_of_gather hR h bytes
  have hgathered := hnoting.gather bytes
  simp only [carryOut]
  rcases hgather : n.gather bytes with ⟨ending, n'⟩
  rw [hgather] at hrest htaken hgathered
  -- a list that is not complete makes no call
  have hbroken : (∀ more, ¬HexList.Continued taken more) →
      ∃ t : LineTurn, t.line = line ∧ t.taken = taken ∧ Made t m (n'.note [.invalidHexData]) := by
    intro hincomplete
    refine made_silent hnone ?_ (hgathered.note (by simp))
    rintro ⟨w, hw⟩
    obtain ⟨more, hmore, -⟩ := hvalue.mpr hw
    exact hincomplete more hmore
  cases htaken with
  | complete rest hmore =>
      obtain ⟨t, hline, rfl, hmade⟩ := made_write hnone (hvalue.mp ⟨_, hmore, rfl⟩) hgathered
      exact ⟨t, rest, given', hline, rfl, (lines_write n' _).symm ▸ hrest, hmade, Or.inl rfl⟩
  | malformed rest hincomplete =>
      obtain ⟨t, hline, rfl, hmade⟩ := hbroken hincomplete
      exact ⟨t, rest, given', hline, rfl, hrest, hmade, Or.inl rfl⟩
  | missing hincomplete =>
      obtain ⟨t, hline, rfl, hmade⟩ := hbroken hincomplete
      exact ⟨t, [], given', hline, rfl, hrest, hmade, Or.inr ⟨rfl, rfl⟩⟩

/-- **What a line states is one turn**, together with the lines that continue it. -/
theorem comesTo_obey (hR : LineSupply.Alike R) (h : R m.lines ⟨left, given⟩) (line : Text) :
    ComesTo R line left m (m.obey (.ofLine line)) := by
  cases hopening : openingPath? line with
  | some path =>
      have hobey : m.obey (.ofLine line) = (.proceed 0, (m.openKey path).2) := by
        rw [ofLine_of_opening hopening, obey, List.map_nil, note_nil]
        rfl
      rw [hobey]
      exact comesTo_alone h (lines_openKey m path) (made_openKey hopening m)
  | none =>
      have hvalue : ∀ {lines w}, (Reading.ofLine line).statement.Sets lines w ↔
          ValueLine line lines w := Reading.sets_ofLine_iff
      have hentry := Reading.ofLine_ne_entry line
      have hkey : ∀ path, (Reading.ofLine line).statement ≠ .key path := by
        intro path hstates
        exact absurd (hopening.symm.trans (ofLine_key_iff.mp hstates)) (by simp)
      have hplain := Reading.isPlain_ofLine line
      unfold Reading.IsPlain at hplain
      revert hvalue hentry hkey hplain
      rcases Reading.ofLine line with ⟨unknown, statement⟩
      intro hvalue hentry hkey hplain
      let noted := m.note (unknown.map .unknownEscape)
      have hnoting : Noting (unknown.map .unknownEscape) m noted :=
        (Noting.refl m).note (by simp)
      cases statement with
      | key path => exact absurd rfl (hkey path)
      | entry path w => exact absurd rfl (hentry path w)
      | nothing =>
          refine comesTo_alone (n := noted) h rfl (made_silent hopening ?_ hnoting)
          rintro ⟨w, hw⟩
          exact hvalue.mpr hw
      | fault kind =>
          have hlocal : ∀ path cause, .keyOpenFailed path cause ∉ [kind] := by
            intro path cause hmem
            have hkind := hplain kind rfl
            rw [← List.mem_singleton.mp hmem] at hkind
            cases hkind
          refine comesTo_alone (n := noted.note [kind]) h rfl
            (made_silent hopening ?_ (hnoting.note hlocal))
          rintro ⟨w, hw⟩
          exact hvalue.mpr hw
      | value w =>
          exact comesTo_alone h (lines_write noted w)
            (made_write hopening (hvalue.mp ⟨rfl, rfl⟩) hnoting)
      | list name type bytes =>
          exact comesTo_list (n := noted) hR h hopening hvalue hnoting

/-- The turn of an importer in front of a line. -/
theorem comesTo_turn (hR : LineSupply.Alike R) {m' : Importer ρ RecordedMemory KeyHandle}
    (hstate : m.state = .lineStart) (hfront : m.front = .lineStart)
    (hfetch : m.fetch = (.ok true, m')) (h : R m'.lines ⟨left, given⟩) (place : Nat) :
    ComesTo R m'.line left m (m.turn place) := by
  obtain ⟨-, -, -, -, hkey, hstore⟩ := kept_of_fetch hfetch
  have hkinds : m'.kinds = m.kinds :=
    congrArg (List.map Diagnostic.kind) (diagnostics_fetch hfetch)
  have hturn : settled (m.turn place) = _ := turn_line hstate hfront hfetch
  obtain ⟨hprogress, hlines, hstoreTurn, hkeyTurn, -, -, hreport⟩ := settled_eq_iff.mp hturn
  obtain ⟨t, rest, given', hline, hleft, hrest, ⟨hcalls, hnoted, hafter, hserves⟩, hend⟩ :=
    comesTo_obey (m := m'.anew .lineStart) hR h m'.line
  have hkey' : (m'.anew .lineStart).key = m.key := hkey
  have hstore' : (m'.anew .lineStart).store = m.store := hstore
  refine ⟨t, rest, given', hline, hleft, hlines ▸ hrest, ⟨?_, ?_, ?_, ?_⟩, ?_⟩
  · rw [hstoreTurn, hcalls, hstore']
  · rw [← hkinds, kinds, hreport]
    exact hnoted
  · rw [hkeyTurn, hafter, hkey']
  · rw [← hkey']
    exact hserves
  · rcases hend with hproceed | ⟨hfinished, hrest⟩
    · exact Or.inl (hprogress.trans hproceed)
    · rw [hfinished] at hprogress
      refine Or.inr ⟨?_, hrest⟩
      revert hprogress
      cases (m.turn place).1 <;> simp [Progress.unplaced]

end Importer

end RegistryText
