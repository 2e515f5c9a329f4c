import RegistryText.Payload.Dword
import RegistryText.Payload.Escaped
import RegistryText.Payload.HexList
import RegistryText.Payload.TypeTag
import RegistryText.Proofs.Lines.Split
import RegistryText.Proofs.Text.Places

/-!
# Written payloads

The forms in which a writer may put down a text, a number and a list of bytes.
They leave it free what a reader does not look at: whether a character of code 0
is escaped, the case of digits, the zeros in front of a code, and where a list
of bytes is broken.

Each form is read back: an escaped text up to its closing quote
(`Escaped.read?_of_written`), a doubleword (`Dword.read?_of_written`), a type tag
in front of its payload (`TypeTag.read?_typed`).  A list of bytes takes several
lines and is read back one item at a time.
-/

namespace RegistryText

/-! ### Escaped texts -/

namespace Escaped

/-- The escaped forms of a text.  A backslash, a quote and the two line ends must
be escaped. -/
inductive Written : Text → Text → Prop
  | nil : Written [] []
  | plain {c : Char} {t written : Text} (hplain : c ≠ '\\' ∧ c ≠ '"' ∧ c ≠ '\r' ∧ c ≠ '\n')
      (tail : Written t written) : Written (c :: t) (c :: written)
  | escape {c d : Char} {t written : Text} (hmeaning : meaning? d = some c)
      (tail : Written t written) : Written (c :: t) ('\\' :: d :: written)

/-- A plain character, read in front of a text that ends in a quote. -/
theorem read?_plain {c : Char} (hquote : c ≠ '"') (hslash : c ≠ '\\') {t : Text} (ht : t ≠ []) :
    read? (c :: t) = (read? t).map (·.plain c) := by
  cases t with
  | nil => exact absurd rfl ht
  | cons d rest => simp [read?, hquote, hslash]

/-- **An escaped text is read back up to its closing quote.** -/
theorem read?_of_written {t written : Text} (h : Written t written) (rest : Text) :
    read? (written ++ '"' :: rest) = some ⟨t, rest, []⟩ := by
  induction h with
  | nil => cases rest <;> simp [read?]
  | plain hplain tail ih =>
      rw [List.cons_append, read?_plain hplain.2.1 hplain.1 (by simp), ih]
      rfl
  | @escape c d t written hmeaning tail ih =>
      have hslash : ('\\' : Char) ≠ '"' := by decide
      simp only [List.cons_append, read?, if_neg hslash, if_true, ih, Option.map_some,
        Unescaped.escape, hmeaning]

/-- No escape stands for a line end by itself. -/
theorem endFree_of_meaning? {c d : Char} (h : meaning? d = some c) : d ≠ '\r' ∧ d ≠ '\n' := by
  constructor <;> rintro rfl <;> simp [meaning?] at h

/-- An escaped text lies in one line. -/
theorem Written.endFree {t written : Text} (h : Written t written) :
    EndFree '\r' '\n' written := by
  induction h with
  | nil => exact endFree_nil
  | plain hplain tail ih => exact endFree_cons.mpr ⟨hplain.2.2, ih⟩
  | escape hmeaning tail ih =>
      exact endFree_cons.mpr ⟨by decide, endFree_cons.mpr ⟨endFree_of_meaning? hmeaning, ih⟩⟩

/-- Every text has an escaped form. -/
theorem exists_written (t : Text) : ∃ written, Written t written := by
  induction t with
  | nil => exact ⟨[], .nil⟩
  | cons c t ih =>
      obtain ⟨written, htail⟩ := ih
      have hescape : ∀ d, meaning? d = some c → ∃ written, Written (c :: t) written :=
        fun d hd => ⟨'\\' :: d :: written, .escape hd htail⟩
      by_cases hslash : c = '\\'
      · exact hescape '\\' (by rw [hslash]; rfl)
      by_cases hquote : c = '"'
      · exact hescape '"' (by rw [hquote]; rfl)
      by_cases hreturn : c = '\r'
      · exact hescape 'r' (by rw [hreturn]; rfl)
      by_cases hfeed : c = '\n'
      · exact hescape 'n' (by rw [hfeed]; rfl)
      · exact ⟨c :: written, .plain ⟨hslash, hquote, hreturn, hfeed⟩ htail⟩

end Escaped

/-! ### Numbers -/

/-- A digit is read back, in capitals or not. -/
theorem hexValue?_hexDigit (letters : LetterCase) (n : Nat) :
    hexValue? (letters.hexDigit n) = some (n % 16) := by
  have hdigits : ∀ d : Fin 16, hexValue? (letters.hexDigit d) = some d.val := by
    cases letters <;> decide
  have hmod : letters.hexDigit n = letters.hexDigit (n % 16) := by
    simp only [LetterCase.hexDigit, Nat.mod_mod]
  rw [hmod]
  exact hdigits ⟨n % 16, Nat.mod_lt n (by decide)⟩

/-- A number written in hexadecimal digits. -/
structure HexWritten (n : Nat) (digits : Text) : Prop where
  all : ∀ c ∈ digits, isHexDigit c = true
  number : Text.hexNumber digits = n

/-- No digit is a blank. -/
theorem isBlank_of_isHexDigit {c : Char} (h : isHexDigit c = true) : isBlank c = false := by
  rw [Bool.eq_false_iff]
  intro hblank
  simp only [isBlank, Bool.or_eq_true, decide_eq_true_eq] at hblank
  rcases hblank with rfl | rfl <;> simp [isHexDigit, hexValue?] at h

/-- A digit is none of the signs of the grammar. -/
theorem ne_of_isHexDigit {c : Char} (h : isHexDigit c = true) :
    c ≠ ';' ∧ c ≠ '\\' ∧ c ≠ ',' ∧ c ≠ '\r' ∧ c ≠ '\n' := by
  refine ⟨?_, ?_, ?_, ?_, ?_⟩ <;> rintro rfl <;> simp [isHexDigit, hexValue?] at h

/-- No line ends within a number. -/
theorem HexWritten.endFree {n : Nat} {digits : Text} (h : HexWritten n digits) :
    EndFree '\r' '\n' digits :=
  fun c hc => (ne_of_isHexDigit (h.all c hc)).2.2.2

/-- **A number is written in as many digits as it takes, or more.** -/
theorem hexWritten_hexPadded (letters : LetterCase) (width : Nat) {n : Nat}
    (h : n < Nat.pow 16 width) :
    HexWritten n (Text.hexPadded letters width n) ∧
      (Text.hexPadded letters width n).length = width := by
  induction width generalizing n with
  | zero =>
      obtain rfl : n = 0 := Nat.lt_one_iff.mp h
      exact ⟨⟨by simp [Text.hexPadded], rfl⟩, rfl⟩
  | succ width ih =>
      have hvalue := hexValue?_hexDigit letters n
      have hbound : n < Nat.pow 16 width * 16 := h
      obtain ⟨hfront, hlength⟩ := ih (n := n / 16) (by omega)
      refine ⟨⟨?_, ?_⟩, ?_⟩
      · refine List.forall_mem_append.mpr ⟨hfront.all, ?_⟩
        simp [isHexDigit, hvalue]
      · have hnumber := hfront.number
        simp only [Text.hexNumber] at hnumber
        simp only [Text.hexNumber, Text.hexPadded, List.foldl_append, hnumber, List.foldl_cons,
          List.foldl_nil, hvalue, Option.getD_some]
        omega
      · rw [Text.hexPadded, List.length_append, hlength]
        rfl

/-- The digits in front of another character are taken. -/
theorem HexWritten.takeWhile_append {n : Nat} {digits : Text} (h : HexWritten n digits) {c : Char}
    (hc : isHexDigit c = false) (rest : Text) :
    (digits ++ c :: rest).takeWhile isHexDigit = digits ∧
      (digits ++ c :: rest).dropWhile isHexDigit = c :: rest := by
  rw [List.takeWhile_append_of_pos h.all, List.dropWhile_append_of_pos h.all,
    List.takeWhile_cons_of_neg (by simp [hc]), List.dropWhile_cons_of_neg (by simp [hc])]
  simp

/-- **A doubleword of eight digits is read back.** -/
theorem Dword.read?_of_written {value : UInt32} {digits : Text}
    (h : HexWritten value.toNat digits) (hlength : digits.length = 8) :
    Dword.read? digits = some value := by
  have hskip : digits.skipBlanks = digits := by
    cases digits with
    | nil => rfl
    | cons c rest =>
        exact Text.skipBlanks_cons (isBlank_of_isHexDigit (h.all c (by simp))) rest
  have htake : digits.takeWhile isHexDigit = digits := by
    have hnone : (digits ++ []).takeWhile isHexDigit = digits ++ [].takeWhile isHexDigit :=
      List.takeWhile_append_of_pos h.all
    simpa using hnone
  have hdrop : digits.dropWhile isHexDigit = [] := by
    have hnone : (digits ++ []).dropWhile isHexDigit = [].dropWhile isHexDigit :=
      List.dropWhile_append_of_pos h.all
    simpa using hnone
  have hne : digits ≠ [] := by
    intro hnil
    simp [hnil] at hlength
  have hnumber : UInt32.ofNat (Text.hexNumber digits) = value := by
    rw [h.number, UInt32.ofNat_toNat]
  have hend : Text.isEmptyOrComment (Text.skipBlanks []) = true := rfl
  simp only [Dword.read?, hskip, htake, hdrop, hne, hlength, hnumber, hend, if_false, if_true,
    Nat.lt_irrefl]

/-! ### Type tags -/

namespace TypeTag

/-- A quotation mark is the type tag of a string. -/
theorem read?_string (payload : Text) :
    read? ('"' :: payload) = some (⟨.string, .escapedText⟩, payload) := rfl

/-- A number has a type tag of its own. -/
theorem read?_dword (payload : Text) :
    read? ("dword:".toList ++ payload) = some (⟨.dword, .dword⟩, payload) := rfl

/-- **The tag of a code is read back.** -/
theorem read?_typed {code : UInt32} {digits : Text} (h : HexWritten code.toNat digits)
    (hne : digits ≠ []) (payload : Text) :
    read? ("hex(".toList ++ digits ++ "):".toList ++ payload) =
      some (⟨ValueType.ofCode code, .hexList⟩, payload) := by
  have htagged : read? ("hex(".toList ++ digits ++ "):".toList ++ payload) =
      readTyped? (digits ++ ')' :: ':' :: payload) := by
    rw [List.append_assoc, List.append_assoc]
    rfl
  obtain ⟨htake, hdrop⟩ := h.takeWhile_append (by decide : isHexDigit ')' = false) (':' :: payload)
  have hafter : Text.after? "):".toList (')' :: ':' :: payload) = some payload := rfl
  have hcode := code.toNat_lt
  rw [htagged, readTyped?, htake, hdrop, hafter]
  simp [hne, h.number, UInt32.size, hcode]

end TypeTag

/-! ### Lists of bytes -/

namespace HexList

/-- A byte is written in one digit or two. -/
structure ByteWritten (b : UInt8) (digits : Text) : Prop extends HexWritten b.toNat digits where
  length : digits.length = 1 ∨ digits.length = 2

/-- The lines of a list of bytes.  The list may be broken behind every comma, and
what continues it may be indented. -/
inductive Written : Bytes → List Text → Prop
  | empty : Written [] [[]]
  | last {b : UInt8} {digits : Text} (hb : ByteWritten b digits) : Written [b] [digits]
  | next {b : UInt8} {bytes : Bytes} {digits line : Text} {lines : List Text}
      (hb : ByteWritten b digits) (hne : bytes ≠ []) (tail : Written bytes (line :: lines)) :
      Written (b :: bytes) ((digits ++ ',' :: line) :: lines)
  | broken {b : UInt8} {bytes : Bytes} {digits indent line : Text} {lines : List Text}
      (hb : ByteWritten b digits) (hne : bytes ≠ []) (hindent : ∀ c ∈ indent, isBlank c = true)
      (tail : Written bytes (line :: lines)) :
      Written (b :: bytes) ((digits ++ [',', '\\']) :: (indent ++ line) :: lines)

/-- A byte is read up to what follows its digits, if that is no digit. -/
theorem readByte?_of_written {b : UInt8} {c : Char} {digits rest : Text}
    (h : ByteWritten b (c :: digits)) (hrest : ∀ d ∈ rest.head?, hexValue? d = none) :
    readByte? c (digits ++ rest) = some (b, rest) := by
  have hvalue : ∀ d ∈ c :: digits, ∃ v, hexValue? d = some v := fun d hd =>
    Option.isSome_iff_exists.mp (h.all d hd)
  obtain ⟨high, hhigh⟩ := hvalue c (by simp)
  have hnumber := h.number
  rcases h.length with hone | htwo
  · obtain rfl : digits = [] := List.eq_nil_of_length_eq_zero (by simpa using hone)
    have hb : UInt8.ofNat high = b := by
      rw [← UInt8.ofNat_toNat (x := b), ← hnumber]
      simp [Text.hexNumber, hhigh]
    cases rest with
    | nil => simp [readByte?, hhigh, hb]
    | cons d rest => simp [readByte?, hhigh, hb, hrest d (by simp)]
  · obtain ⟨d, rfl⟩ : ∃ d, digits = [d] := List.length_eq_one_iff.mp (by simpa using htwo)
    obtain ⟨low, hlow⟩ := hvalue d (by simp)
    have hb : UInt8.ofNat (16 * high + low) = b := by
      rw [← UInt8.ofNat_toNat (x := b), ← hnumber]
      simp [Text.hexNumber, hhigh, hlow]
    simp [readByte?, hhigh, hlow, hb]

/-- A byte has at least one digit. -/
theorem ByteWritten.ne_nil {b : UInt8} {digits : Text} (h : ByteWritten b digits) :
    digits ≠ [] := by
  rintro rfl
  simpa using h.length

/-- What is found in front of a comma. -/
theorem item_next {b : UInt8} {digits : Text} (h : ByteWritten b digits) (line : Text) :
    item (digits ++ ',' :: line) = .byte b line := by
  cases digits with
  | nil => exact absurd rfl h.ne_nil
  | cons c digits =>
      have hc := h.all c (by simp)
      have hsigns := ne_of_isHexDigit hc
      have hnone : ∀ d ∈ (',' :: line).head?, hexValue? d = none := by
        intro d hd
        obtain rfl : ',' = d := by simpa using hd
        decide
      have hread := readByte?_of_written h hnone
      have hcomma : Text.skipBlanks (',' :: line) = ',' :: line :=
        Text.skipBlanks_cons (by decide) line
      rw [List.cons_append, item, Text.skipBlanks_cons (isBlank_of_isHexDigit hc)]
      simp only [if_neg hsigns.1, if_neg hsigns.2.1, hread, hcomma]
      rfl

/-- What is found at the end of a list. -/
theorem item_last {b : UInt8} {digits : Text} (h : ByteWritten b digits) :
    item digits = .stop .complete [b] := by
  cases digits with
  | nil => exact absurd rfl h.ne_nil
  | cons c digits =>
      have hc := h.all c (by simp)
      have hsigns := ne_of_isHexDigit hc
      have hread : readByte? c (digits ++ []) = some (b, []) := readByte?_of_written h (by simp)
      rw [List.append_nil] at hread
      rw [item, Text.skipBlanks_cons (isBlank_of_isHexDigit hc)]
      simp only [if_neg hsigns.1, if_neg hsigns.2.1, hread]
      rfl

/-- A line that begins with a byte has it in front of the others. -/
theorem readLine_of_byte {line rest : Text} {b : UInt8} (h : item line = .byte b rest) :
    readLine line = ((readLine rest).1, b :: (readLine rest).2) := by
  rw [readLine]
  split <;> simp_all

/-- A line ends where a list does, or where it is continued. -/
theorem readLine_of_stop {line : Text} {ending : Ending} {last : Bytes}
    (h : item line = .stop ending last) : readLine line = (some ending, last) := by
  rw [readLine]
  split <;> simp_all

/-- It keeps the bytes in front of a fault. -/
theorem readLine_of_fault {line : Text} {last : Bytes} (h : item line = .fault last) :
    readLine line = (none, last) := by
  rw [readLine]
  split <;> simp_all

/-- A line that is broken behind its only byte. -/
theorem readLine_broken {b : UInt8} {digits : Text} (h : ByteWritten b digits) :
    readLine (digits ++ [',', '\\']) = (some .continued, [b]) := by
  have hstop : item ['\\'] = .stop .continued [] := by decide
  rw [readLine_of_byte (item_next h ['\\']), readLine_of_stop hstop]

/-- What continues a list begins with a digit. -/
theorem Written.head_line {bytes : Bytes} {line : Text} {lines : List Text}
    (h : Written bytes (line :: lines)) (hne : bytes ≠ []) :
    ∃ c rest, line = c :: rest ∧ isHexDigit c = true := by
  have hfront : ∀ {b : UInt8} {digits : Text} (more : Text), ByteWritten b digits →
      ∃ c rest, digits ++ more = c :: rest ∧ isHexDigit c = true := by
    intro b digits more hb
    cases digits with
    | nil => exact absurd rfl hb.ne_nil
    | cons c digits => exact ⟨c, digits ++ more, rfl, hb.all c (by simp)⟩
  cases h with
  | empty => exact absurd rfl hne
  | last hb => simpa using hfront [] hb
  | next hb hne tail => exact hfront _ hb
  | broken hb hne hindent tail => exact hfront _ hb

/-- The lines of a list are lines. -/
theorem Written.endFree {bytes : Bytes} {lines : List Text} (h : Written bytes lines) :
    ∀ line ∈ lines, EndFree '\r' '\n' line := by
  induction h with
  | empty => simp
  | last hb => simpa using hb.endFree
  | next hb hne tail ih =>
      obtain ⟨hline, hlines⟩ := List.forall_mem_cons.mp ih
      refine List.forall_mem_cons.mpr ⟨?_, hlines⟩
      exact endFree_append.mpr ⟨hb.endFree, endFree_cons.mpr ⟨by decide, hline⟩⟩
  | @broken b bytes digits indent line lines hb hne hindent tail ih =>
      obtain ⟨hline, hlines⟩ := List.forall_mem_cons.mp ih
      have hblank : EndFree '\r' '\n' indent := by
        intro c hc
        constructor <;> rintro rfl <;> exact absurd (hindent _ hc) (by decide)
      refine List.forall_mem_cons.mpr ⟨?_, List.forall_mem_cons.mpr ⟨?_, hlines⟩⟩
      · exact endFree_append.mpr ⟨hb.endFree, by simp⟩
      · exact endFree_append.mpr ⟨hblank, hline⟩

/-- The lines that continue a list are not empty. -/
theorem Written.ne_nil {bytes : Bytes} {lines : List Text} (h : Written bytes lines) :
    ∀ line ∈ lines.tail, line ≠ [] := by
  induction h with
  | empty => simp
  | last hb => simp
  | next hb hne tail ih => exact ih
  | broken hb hne hindent tail ih =>
      obtain ⟨c, rest, rfl, -⟩ := tail.head_line hne
      exact List.forall_mem_cons.mpr ⟨by simp, ih⟩

/-- A byte is written in two digits. -/
theorem byteWritten_hexByte (b : UInt8) : ByteWritten b (Text.hexByte b) := by
  obtain ⟨hdigits, hlength⟩ := hexWritten_hexPadded .lower 2 b.toNat_lt
  exact ⟨hdigits, Or.inr hlength⟩

/-- Every list of bytes can be written in one line. -/
theorem written_write (bytes : Bytes) : Written bytes [write bytes] := by
  induction bytes with
  | nil => exact .empty
  | cons b bytes ih =>
      have hb := byteWritten_hexByte b
      cases bytes with
      | nil => exact .last hb
      | cons b' bytes =>
          have hnext := Written.next hb (List.cons_ne_nil b' bytes) ih
          simpa [write, Text.joinWith] using hnext

/-- Any bytes can be written on one line. -/
theorem exists_written (bytes : Bytes) : ∃ line, Written bytes [line] :=
  ⟨write bytes, written_write bytes⟩

end HexList

end RegistryText
