import RegistryText.Proofs.Import.Obey
import RegistryText.Proofs.Lines.Listed

/-!
# Value lines

A value line is a name, an equals sign and data, with blanks around them; the data
is a tag and its payload, and a list of bytes may go on in the lines behind.
`ValueLine` says so declaratively, with the write that the lines mean.

**A line states a value exactly if it is a value line** (`sets_ofLine_iff`), and
**a turn that holds a key sets a value exactly if its line is a value line**, with
the name, the type and the bytes that the line means
(`setValue_iff_valueLine`).
-/

namespace RegistryText

/-! ### The grammar of value lines -/

/-- The name in front of an equals sign, and what it means. -/
inductive NameSpelled : Text → Option Text → Prop
  | default : NameSpelled ['@'] none
  | quoted {written name : Text} {unknown : List Char}
      (h : Escaped.Means written name unknown) : NameSpelled ('"' :: written ++ ['"']) (some name)

/-- A payload, the lines that continue it, and the bytes that it means. -/
inductive PayloadSpelled : PayloadForm → Text → List Text → Bytes → Prop
  | text {written t trailer : Text} {unknown : List Char}
      (h : Escaped.Means written t unknown) (htrailer : trailer.IsTrailer) :
      PayloadSpelled .escapedText (written ++ '"' :: trailer) [] (stringData t)
  | dword {payload : Text} {value : UInt32} (h : Dword.Spelled payload value) :
      PayloadSpelled .dword payload [] (Dword.bytes value)
  | bytes {payload : Text} {bytes : Bytes} (h : HexList.Spelled payload .complete bytes) :
      PayloadSpelled .hexList payload [] bytes
  | continued {payload : Text} {lines : List Text} {bytes more : Bytes}
      (h : HexList.Spelled payload .continued bytes) (tail : HexList.Continued lines more) :
      PayloadSpelled .hexList payload lines (bytes ++ more)

/-- What may follow the name of a value, the lines that continue it, and the type and
the bytes that it means.  Blanks at the end of the line do not count. -/
inductive AssignmentSpelled : Text → List Text → ValueType → Bytes → Prop
  | mk {front behind data payload : Text} {tag : TypeTag} {lines : List Text} {bytes : Bytes}
      (hfront : front.IsBlanks) (hbehind : behind.IsBlanks)
      (htag : TypeTag.Heads payload tag data.trimBlanksRight)
      (hpayload : PayloadSpelled tag.payload payload lines bytes) :
      AssignmentSpelled (front ++ '=' :: (behind ++ data)) lines tag.declared bytes

/-- A value line, the lines that continue it, and the write that it means. -/
inductive ValueLine : Text → List Text → KeyWrite → Prop
  | mk {front written rest : Text} {name : Option Text} {lines : List Text} {type : ValueType}
      {bytes : Bytes} (hfront : front.IsBlanks) (hname : NameSpelled written name)
      (hrest : AssignmentSpelled rest lines type bytes) :
      ValueLine (front ++ written ++ rest) lines ⟨name, type, bytes⟩

/-! ### Readings of value lines -/

/-- A statement sets a value, if it is continued by lines. -/
def Statement.Sets (lines : List Text) (w : KeyWrite) : Statement → Prop
  | .value v => v = w ∧ lines = []
  | .list name type bytes => ∃ more, HexList.Continued lines more ∧ w = ⟨name, type, bytes ++ more⟩
  | .nothing | .key _ | .entry _ _ | .fault _ => False

namespace Reading

variable {lines : List Text} {w : KeyWrite}

/-- The string of a value sets it just as the payload spells it. -/
theorem sets_ofString {name : Option Text} {type : ValueType} {payload : Text} :
    (ofString name type payload).statement.Sets lines w ↔ w.name = name ∧ w.type = type ∧
      PayloadSpelled .escapedText payload lines w.data := by
  constructor
  · unfold ofString
    split
    · exact False.elim
    next s hread =>
      obtain ⟨written, rfl, hmeans⟩ := Escaped.read?_eq_some_iff.mp hread
      dsimp only
      split
      next hend =>
        rintro ⟨rfl, rfl⟩
        exact ⟨rfl, rfl, .text hmeans (Text.isTrailer_iff.mpr hend)⟩
      next => exact False.elim
  · obtain ⟨name', type', data⟩ := w
    rintro ⟨rfl, rfl, h⟩
    generalize hform : PayloadForm.escapedText = form at h
    cases h <;> cases hform
    next hmeans htrailer =>
      simp only [ofString, hmeans.read?, Text.isTrailer_iff.mp htrailer, if_true]
      exact ⟨rfl, rfl⟩

/-- So does a number. -/
theorem sets_ofDword {name : Option Text} {type : ValueType} {payload : Text} :
    (ofDword name type payload).statement.Sets lines w ↔ w.name = name ∧ w.type = type ∧
      PayloadSpelled .dword payload lines w.data := by
  constructor
  · unfold ofDword
    split
    · exact False.elim
    next value hread =>
      rintro ⟨rfl, rfl⟩
      exact ⟨rfl, rfl, .dword (Dword.read?_eq_some_iff.mp hread)⟩
  · obtain ⟨name', type', data⟩ := w
    rintro ⟨rfl, rfl, h⟩
    generalize hform : PayloadForm.dword = form at h
    cases h <;> cases hform
    next hspelled =>
      simp only [ofDword, Dword.read?_eq_some_iff.mpr hspelled]
      exact ⟨rfl, rfl⟩

/-- So does a list, together with the lines that continue it. -/
theorem sets_ofList {name : Option Text} {type : ValueType} {payload : Text} :
    (ofList name type payload).statement.Sets lines w ↔ w.name = name ∧ w.type = type ∧
      PayloadSpelled .hexList payload lines w.data := by
  constructor
  · unfold ofList
    split
    · exact False.elim
    next bytes hread =>
      rintro ⟨rfl, rfl⟩
      exact ⟨rfl, rfl, .bytes (HexList.readLine_eq_some_iff.mp hread)⟩
    next bytes hread =>
      rintro ⟨more, hmore, rfl⟩
      exact ⟨rfl, rfl, .continued (HexList.readLine_eq_some_iff.mp hread) hmore⟩
  · obtain ⟨name', type', data⟩ := w
    rintro ⟨rfl, rfl, h⟩
    generalize hform : PayloadForm.hexList = form at h
    cases h <;> cases hform
    next hspelled =>
      simp only [ofList, HexList.readLine_eq_some_iff.mpr hspelled]
      exact ⟨rfl, rfl⟩
    next more hspelled tail =>
      simp only [ofList, HexList.readLine_eq_some_iff.mpr hspelled]
      exact ⟨_, tail, rfl⟩

/-- A payload is read by its form. -/
theorem sets_ofPayload {name : Option Text} {tag : TypeTag} {payload : Text} :
    (ofPayload name tag payload).statement.Sets lines w ↔ w.name = name ∧ w.type = tag.declared ∧
      PayloadSpelled tag.payload payload lines w.data := by
  unfold ofPayload
  split
  next hform => rw [hform]; exact sets_ofString
  next hform => rw [hform]; exact sets_ofDword
  next hform => rw [hform]; exact sets_ofList

end Reading

/-- No tag begins with a blank or a minus sign. -/
theorem TypeTag.Heads.head_eq {payload data : Text} {tag : TypeTag} (h : Heads payload tag data) :
    ∃ c rest, data = c :: rest ∧ isBlank c = false ∧ c ≠ '-' := by
  cases h with
  | string => exact ⟨'"', payload, rfl, by decide, by decide⟩
  | binary => exact ⟨'h', _, rfl, by decide, by decide⟩
  | dword => exact ⟨'d', _, rfl, by decide, by decide⟩
  | typed hcode hne => exact ⟨'h', _, rfl, by decide, by decide⟩

namespace Reading

variable {lines : List Text} {w : KeyWrite}

/-- Data is read as a tag and its payload. -/
theorem sets_ofData {name : Option Text} {data : Text} :
    (ofData name data).statement.Sets lines w ↔ ∃ tag payload, TypeTag.Heads payload tag data ∧
      w.name = name ∧ w.type = tag.declared ∧
        PayloadSpelled tag.payload payload lines w.data := by
  constructor
  · unfold ofData
    split
    · exact False.elim
    split
    · exact False.elim
    next tag payload hread =>
      exact fun h => ⟨tag, payload, TypeTag.read?_eq_some_iff.mp hread, sets_ofPayload.mp h⟩
  · rintro ⟨tag, payload, hheads, h⟩
    obtain ⟨c, rest, rfl, -, hminus⟩ := hheads.head_eq
    have hkept : Text.startsWith (c :: rest) ['-'] = false := by
      simp [Text.startsWith, Text.after?, Ne.symm hminus]
    unfold ofData
    rw [hkept, TypeTag.read?_eq_some_iff.mpr hheads]
    exact sets_ofPayload.mpr h

/-- What follows a name is read as an equals sign and data. -/
theorem sets_ofAssignment {name : Option Text} {rest : Text} :
    (ofAssignment name rest).statement.Sets lines w ↔
      w.name = name ∧ AssignmentSpelled rest lines w.type w.data := by
  constructor
  · unfold ofAssignment
    split
    · exact False.elim
    next data hequals =>
      intro h
      obtain ⟨tag, payload, hheads, hname, htype, hpayload⟩ := sets_ofData.mp h
      obtain ⟨front, hfront, hrest⟩ := Text.exists_eq_skipBlanks rest
      obtain ⟨behind, hbehind, hdata⟩ := Text.exists_eq_skipBlanks data
      have hspelled : AssignmentSpelled (front ++ '=' :: (behind ++ data.skipBlanks)) lines
          tag.declared w.data := .mk hfront hbehind hheads hpayload
      rw [hrest, Text.after?_eq_some_iff.mp hequals, hdata, htype]
      exact ⟨hname, hspelled⟩
  · obtain ⟨name', type, bytes⟩ := w
    rintro ⟨rfl, h⟩
    cases h with
    | @mk front behind data payload tag _ _ hfront hbehind hheads hpayload =>
        obtain ⟨c, more, htrimmed, hblank, -⟩ := hheads.head_eq
        obtain ⟨blanks, -, hcut⟩ := Text.exists_eq_trimBlanksRight data
        have hskip : data.skipBlanks = data := by
          rw [hcut, htrimmed]
          exact Text.skipBlanks_cons hblank (more ++ blanks)
        have hequals : Text.after? ['='] (front ++ '=' :: (behind ++ data)).skipBlanks =
            some (behind ++ data) := by
          rw [Text.skipBlanks_append hfront, Text.skipBlanks_cons (by decide)]
          rfl
        unfold ofAssignment
        rw [hequals]
        dsimp only
        rw [Text.skipBlanks_append hbehind, hskip]
        exact sets_ofData.mpr ⟨tag, payload, hheads, rfl, rfl, hpayload⟩

/-- A quoted name stands in front of its assignment, in any spelling of its characters. -/
theorem sets_ofQuoted {rest : Text} :
    (ofQuoted rest).statement.Sets lines w ↔ ∃ written name unknown behind,
      Escaped.Means written name unknown ∧ rest = written ++ '"' :: behind ∧
        w.name = some name ∧ AssignmentSpelled behind lines w.type w.data := by
  constructor
  · unfold ofQuoted
    split
    · exact False.elim
    next name hread =>
      obtain ⟨written, hrest, hmeans⟩ := Escaped.read?_eq_some_iff.mp hread
      intro h
      obtain ⟨hname, hspelled⟩ := sets_ofAssignment.mp h
      exact ⟨written, name.text, name.unknown, name.rest, hmeans, hrest, hname, hspelled⟩
  · rintro ⟨written, name, unknown, behind, hmeans, rfl, hname, hspelled⟩
    unfold ofQuoted
    rw [hmeans.read?]
    exact sets_ofAssignment.mpr ⟨hname, hspelled⟩

/-- **A line states a value exactly if it is a value line.** -/
theorem sets_ofLine_iff {line : Text} :
    (ofLine line).statement.Sets lines w ↔ ValueLine line lines w := by
  constructor
  · obtain ⟨front, hfront, hline⟩ := Text.exists_eq_skipBlanks line
    unfold ofLine
    split
    next rest hskip =>
      unfold ofBracket
      split
      · exact False.elim
      · split <;> exact False.elim
    next rest hskip =>
      intro h
      obtain ⟨hname, hspelled⟩ := sets_ofAssignment.mp h
      obtain ⟨name, type, data⟩ := w
      rw [hline, hskip, show name = none from hname]
      simpa using ValueLine.mk hfront .default hspelled
    next rest hskip =>
      intro h
      obtain ⟨written, name, unknown, behind, hmeans, rfl, hname, hspelled⟩ := sets_ofQuoted.mp h
      obtain ⟨name', type, data⟩ := w
      rw [hline, hskip, show name' = some name from hname]
      simpa using ValueLine.mk hfront (.quoted hmeans) hspelled
    next => exact False.elim
  · rintro ⟨hfront, hname, hspelled⟩
    cases hname with
    | default =>
        have hskip : ∀ rest, Text.skipBlanks ('@' :: rest) = '@' :: rest :=
          Text.skipBlanks_cons (by decide)
        rw [ofLine, List.append_assoc, Text.skipBlanks_append hfront, List.singleton_append, hskip]
        exact sets_ofAssignment.mpr ⟨rfl, hspelled⟩
    | quoted hmeans =>
        have hskip : ∀ rest, Text.skipBlanks ('"' :: rest) = '"' :: rest :=
          Text.skipBlanks_cons (by decide)
        rw [ofLine, List.append_assoc, Text.skipBlanks_append hfront, List.append_assoc,
          List.cons_append, hskip]
        exact sets_ofQuoted.mpr ⟨_, _, _, _, hmeans, by simp, rfl, hspelled⟩

end Reading

/-- A statement of a line that begins with the name of a value. -/
def Statement.IsAssignment : Statement → Prop
  | .value _ | .list _ _ _ | .fault _ => True
  | .nothing | .key _ | .entry _ _ => False

namespace Reading

/-- A payload sets a value or is at fault. -/
theorem isAssignment_ofPayload (name : Option Text) (tag : TypeTag) (payload : Text) :
    (ofPayload name tag payload).statement.IsAssignment := by
  unfold ofPayload
  split
  · unfold ofString
    split
    · trivial
    · dsimp only
      split <;> trivial
  · unfold ofDword
    split <;> trivial
  · unfold ofList
    split <;> trivial

/-- So does an assignment, or it is at fault. -/
theorem isAssignment_ofAssignment (name : Option Text) (rest : Text) :
    (ofAssignment name rest).statement.IsAssignment := by
  unfold ofAssignment
  split
  · trivial
  unfold ofData
  split
  · trivial
  split
  · trivial
  · exact isAssignment_ofPayload _ _ _

/-- So does a quoted name with what follows it. -/
theorem isAssignment_ofQuoted (rest : Text) : (ofQuoted rest).statement.IsAssignment := by
  unfold ofQuoted
  split
  · trivial
  · exact isAssignment_ofAssignment _ _

/-- No line of a structured file opens a key and sets a value of it. -/
theorem ofLine_ne_entry (line path : Text) (w : KeyWrite) :
    (ofLine line).statement ≠ .entry path w := by
  have hne : ∀ {statement : Statement}, statement.IsAssignment → statement ≠ .entry path w := by
    rintro _ h rfl
    exact h
  unfold ofLine
  split
  · unfold ofBracket
    split
    · simp
    · split <;> simp
  · exact hne (isAssignment_ofAssignment _ _)
  · exact hne (isAssignment_ofQuoted _)
  · simp

end Reading

/-! ### Lists over several lines -/

namespace Importer

variable {ρ σ κ : Type}

section Gather

variable [LineSupply ρ] {m m' : Importer ρ σ κ}

/-- A line that is taken is the next one of the supply. -/
theorem next_of_fetch (h : m.fetch = (.ok true, m')) :
    LineSupply.next m.lines = (.ok (some m'.line), m'.lines) := by
  rcases hnext : LineSupply.next m.lines with ⟨message | _ | line, rest⟩ <;>
    simp only [fetch, hnext] at h <;> cases h
  rfl

/-- The line that the supply gives is the current one. -/
theorem fetch_of_next {line : Text} {rest : ρ}
    (h : LineSupply.next m.lines = (.ok (some line), rest)) :
    ∃ m', m.fetch = (.ok true, m') ∧ m'.line = line ∧ m'.lines = rest := by
  simp only [fetch, h]
  exact ⟨_, rfl, rfl, rfl⟩

/-- A list that is complete has been taken from the lines that continue it. -/
theorem gives_of_gather {bytes all : Bytes} (h : (m.gather bytes).1 = .complete all) :
    ∃ lines more, LineSupply.Gives m.lines lines (m.gather bytes).2.lines ∧
      HexList.Continued lines more ∧ all = bytes ++ more := by
  fun_induction gather m bytes with
  | case1 m bytes e m' hfetch => cases h
  | case2 m bytes m' hfetch => cases h
  | case3 m bytes m' hfetch hless hcomment ih =>
      obtain ⟨lines, more, hgives, hmore, rfl⟩ := ih h
      exact ⟨_, more, .line (next_of_fetch hfetch) hgives,
        .comment (Text.startsWith_singleton_iff.mp hcomment) hmore, rfl⟩
  | case4 m bytes m' hfetch hless hlist more hread => cases h
  | case5 m bytes m' hfetch hless hlist more hread =>
      cases h
      rw [HexList.readLine_skipBlanks] at hread
      exact ⟨_, more, .line (next_of_fetch hfetch) (.nothing m'.lines),
        .last (mt Text.startsWith_singleton_iff.mpr hlist)
          (HexList.readLine_eq_some_iff.mp hread), rfl⟩
  | case6 m bytes m' hfetch hless hlist more hread ih =>
      obtain ⟨lines, tail, hgives, htail, rfl⟩ := ih h
      rw [HexList.readLine_skipBlanks] at hread
      exact ⟨_, more ++ tail, .line (next_of_fetch hfetch) hgives,
        .more (mt Text.startsWith_singleton_iff.mpr hlist)
          (HexList.readLine_eq_some_iff.mp hread) htail, List.append_assoc bytes more tail⟩

/-- The lines that continue a list are taken to its end. -/
theorem gather_of_gives {lines : List Text} {more : Bytes} {rest : ρ}
    (hmore : HexList.Continued lines more) (hgives : LineSupply.Gives m.lines lines rest)
    (bytes : Bytes) : ∃ m', m.gather bytes = (.complete (bytes ++ more), m') ∧ m'.lines = rest := by
  induction hmore generalizing m bytes with
  | comment hcomment tail ih =>
      cases hgives with
      | line first behind =>
          obtain ⟨m', hfetch, rfl, rfl⟩ := fetch_of_next first
          rw [gather_of_comment hfetch (Text.startsWith_singleton_iff.mpr hcomment)]
          exact ih behind bytes
  | last hlist h =>
      cases hgives with
      | line first behind =>
          cases behind
          obtain ⟨m', hfetch, rfl, rfl⟩ := fetch_of_next first
          have hstart := Bool.eq_false_iff.mpr (mt Text.startsWith_singleton_iff.mp hlist)
          rw [gather_of_line hfetch hstart, HexList.readLine_skipBlanks,
            HexList.readLine_eq_some_iff.mpr h]
          exact ⟨m', rfl, rfl⟩
  | more hlist h tail ih =>
      cases hgives with
      | line first behind =>
          obtain ⟨m', hfetch, rfl, rfl⟩ := fetch_of_next first
          have hstart := Bool.eq_false_iff.mpr (mt Text.startsWith_singleton_iff.mp hlist)
          rw [gather_of_line hfetch hstart, HexList.readLine_skipBlanks,
            HexList.readLine_eq_some_iff.mpr h, ← List.append_assoc]
          exact ih behind (bytes ++ _)

end Gather

/-- A statement that sets a value is a write, behind the lines that continue it. -/
theorem obey_of_sets [LineSupply ρ] [RegistryStore σ κ] {m : Importer ρ σ κ} {r : Reading}
    {lines : List Text} {rest : ρ} {w : KeyWrite} (hgives : LineSupply.Gives m.lines lines rest)
    (hsets : r.statement.Sets lines w) : ∃ n : Importer ρ σ κ, m.obey r = (.proceed 0, n.write w) ∧
      n.lines = rest ∧ n.state = m.state ∧ n.key = m.key ∧ n.store = m.store := by
  obtain ⟨unknown, statement⟩ := r
  cases statement with
  | nothing | key path | entry path w' | fault kind => exact hsets.elim
  | value w' =>
      obtain ⟨rfl, rfl⟩ := hsets
      cases hgives
      exact ⟨m.note (unknown.map .unknownEscape), rfl, rfl, rfl, rfl, rfl⟩
  | list name type bytes =>
      obtain ⟨more, hmore, rfl⟩ := hsets
      let noted := m.note (unknown.map .unknownEscape)
      obtain ⟨n, hgather, rfl⟩ := gather_of_gives (m := noted) hmore hgives bytes
      obtain ⟨hstate, -, -, -, hkey, hstore⟩ := noted.kept_of_gather bytes
      rw [hgather] at hstate hkey hstore
      exact ⟨n, by simp only [obey, carryOut, hgather, noted], rfl, hstate, hkey, hstore⟩

end Importer

/-! ### Calls of the store -/

/-- The write of a call that sets a value. -/
def StoreCall.set? {κ : Type} : StoreCall κ → Option KeyWrite
  | setValue _ name type data _ => some ⟨name, type, data⟩
  | openKey _ _ _ | closeKey _ => none

/-- The call that sets a value, with the answer of the store behind. -/
def RecordingStore.setCall {σ κ : Type} [RegistryStore σ κ] (store : RecordingStore σ κ) (key : κ)
    (w : KeyWrite) : StoreCall κ :=
  .setValue key w.name w.type w.data
    (RegistryStore.setValue store.behind key w.name w.type w.data).1

namespace RecordingStore

variable {σ κ : Type} [RegistryStore σ κ] (store : RecordingStore σ κ)

/-- A recording store answers a write as the one behind it, and keeps the call. -/
theorem setValue_keep (key : κ) (w : KeyWrite) :
    RegistryStore.setValue store key w.name w.type w.data =
      ((RegistryStore.setValue store.behind key w.name w.type w.data).1,
        store.keep (store.setCall key w)
          (RegistryStore.setValue store.behind key w.name w.type w.data).2) :=
  rfl

/-- It does so with a request to open a key. -/
theorem openKey_keep (root : RootKey) (path : Text) :
    RegistryStore.openKey store root path =
      ((RegistryStore.openKey (κ := κ) store.behind root path).1,
        store.keep (.openKey root path (RegistryStore.openKey store.behind root path).1)
          (RegistryStore.openKey (κ := κ) store.behind root path).2) :=
  rfl

end RecordingStore

namespace Importer

variable {ρ σ κ : Type} [RegistryStore σ κ] {m m' : Importer ρ (RecordingStore σ κ) κ}

/-- The key that is closed, if one is open, is recorded. -/
theorem calls_closeKey (m : Importer ρ (RecordingStore σ κ) κ) :
    m.closeKey.store.calls = m.store.calls ++ (m.key.map StoreCall.closeKey).toList := by
  cases hkey : m.key with
  | none => simp [closeKey, hkey]
  | some key =>
      have hcall : RegistryStore.closeKey m.store key =
          m.store.keep (.closeKey key) (RegistryStore.closeKey m.store.behind key) := rfl
      simp only [closeKey, hkey, hcall, RecordingStore.calls_keep]
      rfl

variable [LineSupply ρ]

/-- A write is one call. -/
theorem calls_write {key : κ} (hkey : m.key = some key) (w : KeyWrite) :
    (m.write w).store.calls = m.store.calls ++ [m.store.setCall key w] := by
  rw [write, hkey]
  dsimp only
  rw [RecordingStore.setValue_keep]
  rcases (RegistryStore.setValue m.store.behind key w.name w.type w.data).1 with cause | _ <;>
    exact m.store.calls_keep _ _

/-- A key that is opened sets no value. -/
theorem calls_openKey (m : Importer ρ (RecordingStore σ κ) κ) (path : Text) :
    ∃ new, (m.openKey path).2.store.calls = m.store.calls ++ new ∧
      ∀ call ∈ new, call.set? = none := by
  have hclosing : ∀ call ∈ (m.key.map StoreCall.closeKey).toList, call.set? = none := by
    cases m.key <;> simp [StoreCall.set?]
  have hclosed := m.calls_closeKey
  simp only [openKey, requestKey]
  cases RegistryStore.resolveRoot (κ := κ) m.closeKey.store path with
  | none => exact ⟨_, hclosed, hclosing⟩
  | some root =>
      obtain ⟨root, below⟩ := root
      dsimp only
      rw [RecordingStore.openKey_keep]
      refine ⟨(m.key.map StoreCall.closeKey).toList ++
        [.openKey root below (RegistryStore.openKey m.closeKey.store.behind root below).1], ?_, ?_⟩
      · rw [← List.append_assoc, ← hclosed]
        rcases (RegistryStore.openKey (κ := κ) m.closeKey.store.behind root below).1
          with cause | key <;> exact m.closeKey.store.calls_keep _ _
      · intro call hcall
        rcases List.mem_append.mp hcall with hcall | hcall
        · exact hclosing call hcall
        · rw [List.mem_singleton.mp hcall]
          rfl

/-- A statement of a structured file that sets no value makes no such call. -/
theorem obey_of_not_sets {r : Reading} (hentry : ∀ path w, r.statement ≠ .entry path w)
    (hnot : ∀ lines rest w, LineSupply.Gives m.lines lines rest → ¬r.statement.Sets lines w) :
    ∃ new, (m.obey r).2.store.calls = m.store.calls ++ new ∧ ∀ call ∈ new, call.set? = none := by
  obtain ⟨unknown, statement⟩ := r
  have hsilent : ∃ new, m.store.calls = m.store.calls ++ new ∧ ∀ call ∈ new, call.set? = none :=
    ⟨[], by simp, by simp⟩
  cases statement with
  | nothing | fault kind => exact hsilent
  | key path => exact calls_openKey (m.note (unknown.map .unknownEscape)) path
  | entry path w => exact absurd rfl (hentry path w)
  | value w => exact absurd ⟨rfl, rfl⟩ (hnot [] m.lines w (.nothing m.lines))
  | list name type bytes =>
      let noted := m.note (unknown.map .unknownEscape)
      obtain ⟨-, -, -, -, -, hstore⟩ := noted.kept_of_gather bytes
      simp only [obey, carryOut]
      rcases hgather : noted.gather bytes with ⟨ending, m'⟩
      rw [hgather] at hstore
      have hsame : ∃ new, m'.store.calls = m.store.calls ++ new ∧
          ∀ call ∈ new, call.set? = none := hstore.symm ▸ hsilent
      cases ending with
      | complete all =>
          obtain ⟨lines, more, hgives, hmore, -⟩ :=
            gives_of_gather (congrArg Prod.fst hgather)
          exact absurd ⟨more, hmore, rfl⟩ (hnot lines _ ⟨name, type, bytes ++ more⟩ hgives)
      | malformed | missing | failed e => exact hsame

/-! ### Turns of a structured file -/

omit [RegistryStore σ κ] [LineSupply ρ] in
/-- In a structured dialect every line begins afresh. -/
theorem front_of_structured {d : Dialect} (hdialect : m.dialect = some d)
    (hstructured : d.isStructured = true) : m.front = .lineStart := by
  have hne : m.dialect ≠ some .windows31 := by
    rw [hdialect]
    intro heq
    cases heq
    cases hstructured
  exact if_neg hne

/-- A value line is set, and its turn ends behind the lines that continue it. -/
theorem turn_of_valueLine {key : κ} (hstate : m.state = .lineStart) (hfront : m.front = .lineStart)
    (hkey : m.key = some key) (hfetch : m.fetch = (.ok true, m')) (place : Nat)
    {lines : List Text} {rest : ρ} {w : KeyWrite} (hgives : LineSupply.Gives m'.lines lines rest)
    (hline : ValueLine m'.line lines w) :
    (m.turn place).2.store.calls = m.store.calls ++ [m.store.setCall key w] ∧
      (m.turn place).1.unplaced = .proceed 0 ∧ (m.turn place).2.state = .lineStart ∧
      (m.turn place).2.lines = rest := by
  obtain ⟨-, -, -, -, hkey', hstore'⟩ := kept_of_fetch hfetch
  obtain ⟨n, hobey, hrest, hn, hkeyn, hstoren⟩ := obey_of_sets (m := m'.anew .lineStart) hgives
    (Reading.sets_ofLine_iff.mpr hline)
  have hturn : settled (m.turn place) = settled (.proceed 0, n.write w) := by
    rw [turn_line hstate hfront hfetch, hobey]
  obtain ⟨hprogress, hlines, hafter, -, hback, -, -⟩ := settled_eq_iff.mp hturn
  have hstore : n.store = m.store := hstoren.trans hstore'
  refine ⟨?_, hprogress, hback.trans ((n.state_write w).trans hn),
    hlines.trans ((n.lines_write w).trans hrest)⟩
  rw [hafter, calls_write (hkeyn.trans (hkey'.trans hkey)), hstore]

/-- A line that is no value line sets no value. -/
theorem turn_of_no_valueLine (hstate : m.state = .lineStart) (hfront : m.front = .lineStart)
    (hfetch : m.fetch = (.ok true, m')) (place : Nat)
    (hnone : ∀ lines rest w, LineSupply.Gives m'.lines lines rest → ¬ValueLine m'.line lines w) :
    ∃ new, (m.turn place).2.store.calls = m.store.calls ++ new ∧
      ∀ call ∈ new, call.set? = none := by
  obtain ⟨new, hcalls, hsilent⟩ := obey_of_not_sets (m := m'.anew .lineStart)
    (Reading.ofLine_ne_entry m'.line)
    fun lines rest w hgives hsets => hnone lines rest w hgives (Reading.sets_ofLine_iff.mp hsets)
  obtain ⟨-, -, -, -, -, hstore⟩ := kept_of_fetch hfetch
  have hturn : settled (m.turn place) = _ := turn_line hstate hfront hfetch
  obtain ⟨-, -, hafter, -⟩ := settled_eq_iff.mp hturn
  refine ⟨new, ?_, hsilent⟩
  rw [hafter, hcalls, ← hstore]
  rfl

end Importer

/-- **A value line is set as it is meant, and no other line sets a value.**  While a key
is open, the turn of a line of a structured file sets at most one value.  It sets one
exactly if the line is a value line together with the lines that continue it; then it
takes these lines, and its one call has the name, the type and the bytes that they
mean. -/
theorem setValue_iff_valueLine {ρ σ κ : Type} [LineSupply ρ] [RegistryStore σ κ]
    {m m' : Importer ρ (RecordingStore σ κ) κ} {d : Dialect} {key : κ}
    (hstate : m.state = .lineStart) (hdialect : m.dialect = some d)
    (hstructured : d.isStructured = true) (hkey : m.key = some key)
    (hfetch : m.fetch = (.ok true, m')) (place : Nat) :
    ∃ new, (m.turn place).2.store.calls = m.store.calls ++ new ∧
      (new.filterMap StoreCall.set?).length ≤ 1 ∧
      (∀ w, w ∈ new.filterMap StoreCall.set? ↔
        ∃ lines rest, LineSupply.Gives m'.lines lines rest ∧ ValueLine m'.line lines w) ∧
      ∀ lines rest w, LineSupply.Gives m'.lines lines rest → ValueLine m'.line lines w →
        new = [m.store.setCall key w] ∧ (m.turn place).1.unplaced = .proceed 0 ∧
          (m.turn place).2.state = .lineStart ∧ (m.turn place).2.lines = rest := by
  have hfront := Importer.front_of_structured hdialect hstructured
  by_cases hvalue : ∃ lines rest w, LineSupply.Gives m'.lines lines rest ∧ ValueLine m'.line lines w
  · obtain ⟨lines, rest, w, hgives, hline⟩ := hvalue
    have hcall := (Importer.turn_of_valueLine hstate hfront hkey hfetch place hgives hline).1
    have hsame : ∀ {lines rest v}, LineSupply.Gives m'.lines lines rest →
        ValueLine m'.line lines v → [m.store.setCall key w] = [m.store.setCall key v] :=
      fun hgives hline => List.append_cancel_left (hcall.symm.trans
        (Importer.turn_of_valueLine hstate hfront hkey hfetch place hgives hline).1)
    refine ⟨_, hcall, Nat.le_refl 1, ?_, ?_⟩
    · intro v
      constructor
      · intro hv
        obtain rfl : v = w := List.mem_singleton.mp hv
        exact ⟨lines, rest, hgives, hline⟩
      · rintro ⟨lines', rest', hgives', hline'⟩
        rw [hsame hgives' hline']
        exact List.mem_singleton.mpr rfl
    · intro lines' rest' v hgives' hline'
      exact ⟨hsame hgives' hline',
        (Importer.turn_of_valueLine hstate hfront hkey hfetch place hgives' hline').2⟩
  · have hnone : ∀ lines rest w, LineSupply.Gives m'.lines lines rest →
        ¬ValueLine m'.line lines w :=
      fun lines rest w hgives hline => hvalue ⟨lines, rest, w, hgives, hline⟩
    obtain ⟨new, hcalls, hsilent⟩ :=
      Importer.turn_of_no_valueLine hstate hfront hfetch place hnone
    have hempty : new.filterMap StoreCall.set? = [] := List.filterMap_eq_nil_iff.mpr hsilent
    refine ⟨new, hcalls, ?_, ?_, ?_⟩
    · rw [hempty]
      exact Nat.zero_le 1
    · intro w
      rw [hempty]
      constructor
      · intro hw
        exact absurd hw List.not_mem_nil
      · rintro ⟨lines, rest, hgives, hline⟩
        exact absurd hline (hnone lines rest w hgives)
    · intro lines rest w hgives hline
      exact absurd hline (hnone lines rest w hgives)

/-- A store with one open key, and its calls. -/
def storeOfOneKey : Except StoreError KeyHandle × RecordingStore MemoryStore KeyHandle :=
  RegistryStore.openKey ⟨{}, []⟩ .currentUser []

/-- An importer in front of a value line with odd blanks, quotes, signs and comments. -/
def importerOfOddLine : Importer ListedLines (RecordingStore MemoryStore KeyHandle) KeyHandle where
  lines := ⟨["\t\"=;\\\"-\" =  hex(0080000007): 1 , b,\\ ; - ".toList, " ; =".toList,
    "\tFF,".toList, "@".toList], 2⟩
  store := storeOfOneKey.2
  state := .lineStart
  key := storeOfOneKey.1.toOption
  dialect := some .version5
  report := { encoding := .narrow, dialect := some .version5 }

/-- The odd line sets one value, and takes two more lines for it. -/
theorem setValue_iff_valueLine_odd :
    (importerOfOddLine.turn 0).2.store.calls = storeOfOneKey.2.calls ++
        [.setValue ⟨0, "hkey_current_user".toList, "HKEY_CURRENT_USER".toList⟩
          (some "=;\"-".toList) (.unknown 0x80000007) [0x01, 0x0B, 0xFF] (.ok ())] ∧
      (importerOfOddLine.turn 0).2.lines.left = ["@".toList] := by
  let m' := importerOfOddLine.fetch.2
  have hkey : importerOfOddLine.key =
      some ⟨0, "hkey_current_user".toList, "HKEY_CURRENT_USER".toList⟩ := by decide
  have hfetch : importerOfOddLine.fetch = (.ok true, m') := rfl
  have hgives : LineSupply.Gives m'.lines [" ; =".toList, "\tFF,".toList] ⟨["@".toList], 5⟩ :=
    .line rfl (.line rfl (.nothing _))
  have hread : (Reading.ofLine m'.line).statement =
      .list (some "=;\"-".toList) (.unknown 0x80000007) [0x01, 0x0B] := by decide +kernel
  have hmore : HexList.Continued [" ; =".toList, "\tFF,".toList] [0xFF] :=
    .comment (by decide)
      (.last (by decide) (HexList.readLine_eq_some_iff.mp (by decide +kernel)))
  have hline : ValueLine m'.line [" ; =".toList, "\tFF,".toList]
      ⟨some "=;\"-".toList, .unknown 0x80000007, [0x01, 0x0B, 0xFF]⟩ :=
    Reading.sets_ofLine_iff.mp (hread ▸ ⟨[0xFF], hmore, rfl⟩)
  obtain ⟨new, hcalls, -, -, hset⟩ :=
    setValue_iff_valueLine (m := importerOfOddLine) rfl rfl rfl hkey hfetch 0
  obtain ⟨rfl, -, -, hrest⟩ := hset _ _ _ hgives hline
  exact ⟨hcalls, congrArg ListedLines.left hrest⟩

end RegistryText
