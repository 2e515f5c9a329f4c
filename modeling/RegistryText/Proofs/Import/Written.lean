import RegistryText.Header
import RegistryText.Proofs.Payload.Written
import RegistryText.Proofs.Store.Calls

/-!
# Written registry files

What a writer of registry files puts down: a header, then sections of a key and
the entries of that key, each on lines of their own.  An entry has a name or is
the default value of its key, and its payload is a text, a doubleword, or bytes
of any type.

The relations say which lines are a form of which content.  They allow every
freedom of the forms of payloads, and each line may have any of the three ends.
`linesOf_of_ended` gets the lines back from the text, since none is empty and
none holds a line end (`SectionsWritten.lines`).
-/

namespace RegistryText

/-! ### Contents -/

/-- What an entry holds. -/
inductive EntryPayload where
  | text (t : Text)
  | dword (value : UInt32)
  | bytes (code : UInt32) (bytes : Bytes)
  deriving DecidableEq, Repr

namespace EntryPayload

/-- The type that the payload declares. -/
def type : EntryPayload → ValueType
  | text _ => .string
  | dword _ => .dword
  | bytes code _ => ValueType.ofCode code

/-- The data that the payload means. -/
def data : EntryPayload → Bytes
  | text t => stringData t
  | dword value => Dword.bytes value
  | bytes _ given => given

end EntryPayload

/-- An entry of a key; only the default value has no name. -/
structure RegistryEntry where
  name : Option Text
  payload : EntryPayload
  deriving DecidableEq, Repr

/-- The value that the entry sets. -/
def RegistryEntry.write (entry : RegistryEntry) : KeyWrite :=
  ⟨entry.name, entry.payload.type, entry.payload.data⟩

/-- A key and its entries.  The path begins with a root key and lies in one
line. -/
structure RegistrySection where
  path : Text
  root : RootKey
  below : Text
  entries : List RegistryEntry
  split : RootKey.split? path = some (root, below)
  endFree : EndFree '\r' '\n' path

namespace RegistrySection

/-- The line of the key. -/
def keyLine (section' : RegistrySection) : Text :=
  '[' :: section'.path ++ [']']

/-- The calls of a store that the section asks for. -/
def block (section' : RegistrySection) : KeyBlock :=
  ⟨canonicalPath section'.root section'.below, section'.entries.map RegistryEntry.write⟩

end RegistrySection

/-! ### Forms -/

/-- The forms of the name of an entry. -/
inductive NameWritten : Option Text → Text → Prop
  | default : NameWritten none ['@']
  | quoted {name written : Text} (h : Escaped.Written name written) :
      NameWritten (some name) ('"' :: written ++ ['"'])

/-- The forms of a payload: what stands behind the equals sign, and the lines that
continue it. -/
inductive PayloadWritten : EntryPayload → Text → List Text → Prop
  | text {t written : Text} (h : Escaped.Written t written) :
      PayloadWritten (.text t) ('"' :: written ++ ['"']) []
  | dword {value : UInt32} {digits : Text} (h : HexWritten value.toNat digits)
      (hlength : digits.length = 8) :
      PayloadWritten (.dword value) ("dword:".toList ++ digits) []
  | bytes {code : UInt32} {bytes : Bytes} {digits line : Text} {more : List Text}
      (hcode : HexWritten code.toNat digits) (hne : digits ≠ [])
      (h : HexList.Written bytes (line :: more)) :
      PayloadWritten (.bytes code bytes) ("hex(".toList ++ digits ++ "):".toList ++ line) more

/-- The lines of an entry. -/
inductive EntryWritten : RegistryEntry → List Text → Prop
  | mk {entry : RegistryEntry} {name data : Text} {more : List Text}
      (hname : NameWritten entry.name name) (hpayload : PayloadWritten entry.payload data more) :
      EntryWritten entry ((name ++ '=' :: data) :: more)

/-- The lines of entries. -/
inductive EntriesWritten : List RegistryEntry → List Text → Prop
  | nil : EntriesWritten [] []
  | cons {entry : RegistryEntry} {entries : List RegistryEntry} {lines more : List Text}
      (head : EntryWritten entry lines) (tail : EntriesWritten entries more) :
      EntriesWritten (entry :: entries) (lines ++ more)

/-- The lines of sections. -/
inductive SectionsWritten : List RegistrySection → List Text → Prop
  | nil : SectionsWritten [] []
  | cons {section' : RegistrySection} {sections : List RegistrySection} {lines more : List Text}
      (head : EntriesWritten section'.entries lines) (tail : SectionsWritten sections more) :
      SectionsWritten (section' :: sections) (section'.keyLine :: (lines ++ more))

/-- The three ends of a line. -/
def lineEnds : List Text :=
  [['\r'], ['\n'], ['\r', '\n']]

/-- A text of lines, each with an end of its own. -/
inductive Ended : List Text → Text → Prop
  | nil : Ended [] []
  | cons {line ending text : Text} {lines : List Text} (hending : ending ∈ lineEnds)
      (tail : Ended lines text) : Ended (line :: lines) (line ++ ending ++ text)

/-- The text of a file of a structured dialect. -/
structure FileWritten (d : Dialect) (sections : List RegistrySection) (text : Text) : Prop where
  structured : d.isStructured = true
  ended : ∃ header lines, d.header? = some header ∧ SectionsWritten sections lines ∧
    Ended (header :: lines) text

/-! ### Every content has a form -/

/-- Every name can be written. -/
theorem NameWritten.exists (name : Option Text) : ∃ written, NameWritten name written := by
  cases name with
  | none => exact ⟨_, .default⟩
  | some name =>
      obtain ⟨written, h⟩ := Escaped.exists_written name
      exact ⟨_, .quoted h⟩

/-- So can every payload. -/
theorem PayloadWritten.exists (payload : EntryPayload) :
    ∃ data, PayloadWritten payload data [] := by
  cases payload with
  | text t =>
      obtain ⟨written, h⟩ := Escaped.exists_written t
      exact ⟨_, .text h⟩
  | dword value =>
      obtain ⟨h, hlength⟩ := hexWritten_hexPadded .lower 8 value.toNat_lt
      exact ⟨_, .dword h hlength⟩
  | bytes code bytes =>
      obtain ⟨h, hlength⟩ := hexWritten_hexPadded .lower 8 code.toNat_lt
      have hne : Text.hexPadded .lower 8 code.toNat ≠ [] := by
        intro hnil
        simp [hnil] at hlength
      obtain ⟨line, hline⟩ := HexList.exists_written bytes
      exact ⟨_, .bytes h hne hline⟩

/-- So can entries, one behind the other. -/
theorem EntriesWritten.exists (entries : List RegistryEntry) :
    ∃ lines, EntriesWritten entries lines := by
  induction entries with
  | nil => exact ⟨_, .nil⟩
  | cons entry entries ih =>
      obtain ⟨written, hname⟩ := NameWritten.exists entry.name
      obtain ⟨data, hpayload⟩ := PayloadWritten.exists entry.payload
      obtain ⟨more, htail⟩ := ih
      exact ⟨_, .cons (.mk hname hpayload) htail⟩

/-- So can sections. -/
theorem SectionsWritten.exists (sections : List RegistrySection) :
    ∃ lines, SectionsWritten sections lines := by
  induction sections with
  | nil => exact ⟨_, .nil⟩
  | cons section' sections ih =>
      obtain ⟨lines, head⟩ := EntriesWritten.exists section'.entries
      obtain ⟨more, tail⟩ := ih
      exact ⟨_, .cons head tail⟩

/-- Lines can be ended by any line end throughout. -/
theorem Ended.exists {ending : Text} (hending : ending ∈ lineEnds) (lines : List Text) :
    ∃ text, Ended lines text := by
  induction lines with
  | nil => exact ⟨_, .nil⟩
  | cons line lines ih =>
      obtain ⟨text, tail⟩ := ih
      exact ⟨_, .cons hending tail⟩

/-- **Every list of sections can be written in every structured dialect.** -/
theorem FileWritten.exists {d : Dialect} (h : d.isStructured = true)
    (sections : List RegistrySection) : ∃ text, FileWritten d sections text := by
  obtain ⟨header, hheader⟩ : ∃ header, d.header? = some header := by
    cases d <;> first | exact ⟨_, rfl⟩ | cases h
  obtain ⟨lines, hlines⟩ := SectionsWritten.exists sections
  obtain ⟨text, htext⟩ := Ended.exists (by decide : ['\r', '\n'] ∈ lineEnds) (header :: lines)
  exact ⟨text, h, header, lines, hheader, hlines, htext⟩

/-! ### Lines -/

/-- A line that is not empty and holds no line end. -/
def IsLine (line : Text) : Prop :=
  line ≠ [] ∧ EndFree '\r' '\n' line

/-- No line ends within a written name. -/
theorem NameWritten.isLine {name : Option Text} {written : Text} (h : NameWritten name written) :
    IsLine written := by
  cases h with
  | default => exact ⟨by simp, by simp⟩
  | quoted h =>
      exact ⟨by simp, endFree_append.mpr ⟨endFree_cons.mpr ⟨by decide, h.endFree⟩, by simp⟩⟩

/-- Nor within a written payload, and its further lines are whole ones. -/
theorem PayloadWritten.endFree {payload : EntryPayload} {data : Text} {more : List Text}
    (h : PayloadWritten payload data more) :
    EndFree '\r' '\n' data ∧ ∀ line ∈ more, IsLine line := by
  cases h with
  | text h =>
      exact ⟨endFree_append.mpr ⟨endFree_cons.mpr ⟨by decide, h.endFree⟩, by simp⟩, by simp⟩
  | dword h hlength =>
      exact ⟨endFree_append.mpr ⟨by simp, h.endFree⟩, by simp⟩
  | bytes hcode hne h =>
      obtain ⟨hline, hmore⟩ := List.forall_mem_cons.mp h.endFree
      refine ⟨?_, fun line hmem => ⟨h.ne_nil line hmem, hmore line hmem⟩⟩
      exact endFree_append.mpr ⟨endFree_append.mpr ⟨endFree_append.mpr
        ⟨by simp, hcode.endFree⟩, by simp⟩, hline⟩

/-- So the lines of an entry are lines. -/
theorem EntryWritten.isLine {entry : RegistryEntry} {lines : List Text}
    (h : EntryWritten entry lines) : ∀ line ∈ lines, IsLine line := by
  cases h with
  | mk hname hpayload =>
      obtain ⟨hdata, hmore⟩ := hpayload.endFree
      refine List.forall_mem_cons.mpr ⟨⟨by simp, ?_⟩, hmore⟩
      exact endFree_append.mpr ⟨hname.isLine.2, endFree_cons.mpr ⟨by decide, hdata⟩⟩

/-- So are those of many. -/
theorem EntriesWritten.isLine {entries : List RegistryEntry} {lines : List Text}
    (h : EntriesWritten entries lines) : ∀ line ∈ lines, IsLine line := by
  induction h with
  | nil => simp
  | cons head tail ih => exact List.forall_mem_append.mpr ⟨head.isLine, ih⟩

/-- The lines of sections are lines. -/
theorem SectionsWritten.isLine {sections : List RegistrySection} {lines : List Text}
    (h : SectionsWritten sections lines) : ∀ line ∈ lines, IsLine line := by
  induction h with
  | nil => simp
  | @cons section' sections lines more head tail ih =>
      refine List.forall_mem_cons.mpr ⟨⟨by simp [RegistrySection.keyLine], ?_⟩,
        List.forall_mem_append.mpr ⟨head.isLine, ih⟩⟩
      exact endFree_append.mpr ⟨endFree_cons.mpr ⟨by decide, section'.endFree⟩, by simp⟩

/-- The header of a dialect is a line. -/
theorem isLine_header {d : Dialect} {header : Text} (h : d.header? = some header) :
    IsLine header := by
  cases d <;> cases h <;> exact ⟨by decide, by decide⟩

/-- No line begins with a line feed, so none is lost behind a carriage return. -/
theorem Ended.dropLineFeed_eq {lines : List Text} {text : Text} (h : Ended lines text)
    (hlines : ∀ line ∈ lines, IsLine line) : dropLineFeed '\n' text = text := by
  cases h with
  | nil => rfl
  | @cons line ending text lines hending tail =>
      obtain ⟨hne, hfree⟩ := hlines line (by simp)
      cases line with
      | nil => exact absurd rfl hne
      | cons c line => simp [dropLineFeed, (endFree_cons.mp hfree).1.2]

/-- **The lines of a text of lines.** -/
theorem linesOf_of_ended {lines : List Text} {text : Text} (h : Ended lines text)
    (hlines : ∀ line ∈ lines, IsLine line) : linesOf '\r' '\n' text = lines := by
  induction h with
  | nil => rfl
  | @cons line ending text lines hending tail ih =>
      obtain ⟨⟨-, hfree⟩, hmore⟩ := List.forall_mem_cons.mp hlines
      have hne : ('\r' : Char) ≠ '\n' := by decide
      have htext := ih hmore
      rw [List.append_assoc]
      simp only [lineEnds, List.mem_cons, List.not_mem_nil, or_false] at hending
      rcases hending with rfl | rfl | rfl
      · rw [List.singleton_append, linesOf_append_cr hne hfree, tail.dropLineFeed_eq hmore, htext]
      · rw [List.singleton_append, linesOf_append_lf hfree, htext]
      · rw [List.cons_append, List.singleton_append, linesOf_append_cr hne hfree, dropLineFeed,
          if_pos rfl, htext]

end RegistryText
