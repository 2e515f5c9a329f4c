import Mathlib.Data.List.DropRight
import RegistryText.Payload.Dword
import RegistryText.Value.Data
import RegistryText.Proofs.Encoding.Utf16
import RegistryText.Proofs.Text.Pieces

/-!
# Views of stored data

A view inverts the way in which data is stored (`ofBytes_of_stored`).  **A stored string is viewed
as the string without the zeros at its end**, and a lone byte behind it makes no difference
(`textOf_encode`).  A list of strings is stored as its strings one behind the other, each with its
closing zero, and one more zero; it is viewed as the list if none of its strings is empty or has a
zero in it.  A number is stored as its bytes in either order and viewed as the number, whatever
follows; fewer bytes have no view as a number.
-/

namespace RegistryText

/-! ### Texts -/

namespace Text

/-- The text without the zeros at its end. -/
def trimZeros (t : Text) : Text :=
  t.rdropWhile (· = '\x00')

/-- A zero at the end of a text is trimmed. -/
theorem trimZeros_concat (t : Text) : trimZeros (t ++ ['\x00']) = t.trimZeros :=
  List.rdropWhile_concat_pos _ _ _ (by decide)

/-- No zero is left at the end of a trimmed text. -/
theorem getLast?_trimZeros_ne (t : Text) : t.trimZeros.getLast? ≠ some '\x00' := by
  intro hlast
  have hne : t.trimZeros ≠ [] := by
    intro hnil
    rw [hnil] at hlast
    cases hlast
  have hnot := List.rdropWhile_last_not (· = '\x00') t hne
  rw [List.getLast?_eq_some_getLast hne] at hlast
  exact hnot (decide_eq_true (Option.some.inj hlast))

/-- A text is what is left without the zeros at its end, and these zeros. -/
theorem exists_eq_trimZeros (t : Text) :
    ∃ n, t = t.trimZeros ++ List.replicate n '\x00' := by
  have hall : ∀ c ∈ t.rtakeWhile (· = '\x00'), c = '\x00' := by
    intro c hc
    simpa using List.mem_rtakeWhile_imp hc
  refine ⟨(t.rtakeWhile (· = '\x00')).length, ?_⟩
  rw [← List.eq_replicate_of_mem hall]
  exact List.rdropWhile_append_rtakeWhile.symm

/-- Only zeros at the end are taken away. -/
theorem trimZeros_eq_self_iff {t : Text} :
    t.trimZeros = t ↔ t.getLast? ≠ some '\x00' := by
  constructor
  · intro h
    rw [← h]
    exact t.getLast?_trimZeros_ne
  · intro hlast
    obtain ⟨n, ht⟩ := t.exists_eq_trimZeros
    cases n with
    | zero => simpa using ht.symm
    | succ n =>
        rw [ht, List.replicate_succ', ← List.append_assoc] at hlast
        exact absurd List.getLast?_concat hlast

/-- Pieces between zeros are not seen to end in zeros. -/
theorem fullPieces_trimZeros (t : Text) :
    fullPieces '\x00' t.trimZeros = fullPieces '\x00' t := by
  obtain ⟨n, ht⟩ := t.exists_eq_trimZeros
  conv_rhs => rw [ht]
  rw [fullPieces_append_replicate]

end Text

/-! ### Strings -/

namespace Utf16

/-- Texts are encoded one character at a time. -/
theorem encode_append (s t : Text) : encode (s ++ t) = encode s ++ encode t :=
  List.flatMap_append

/-- Units are laid out one behind the other. -/
theorem littleEndian_append (units more : List UInt16) :
    littleEndian (units ++ more) = littleEndian units ++ littleEndian more :=
  List.flatMap_append

/-- Each unit has two bytes. -/
theorem length_littleEndian (units : List UInt16) :
    (littleEndian units).length = 2 * units.length := by
  induction units with
  | nil => rfl
  | cons u units ih =>
      have hcons : littleEndian (u :: units) =
          UInt8.ofNat u.toNat :: UInt8.ofNat (u.toNat / 256) :: littleEndian units := rfl
      rw [hcons, List.length_cons, List.length_cons, ih, List.length_cons]
      omega

/-- A lone byte adds no unit. -/
theorem wholeUnits_littleEndian_append (units : List UInt16) (lone : Option UInt8) :
    (wholeUnits (littleEndian units ++ lone.toList)).1 = units := by
  induction units with
  | nil => cases lone <;> rfl
  | cons u units ih =>
      have hcons : littleEndian (u :: units) ++ lone.toList =
          UInt8.ofNat u.toNat :: UInt8.ofNat (u.toNat / 256) ::
            (littleEndian units ++ lone.toList) := rfl
      rw [hcons, wholeUnits, ih, unit_little]

end Utf16

/-- The bytes of a text: its units, low byte first. -/
def wideBytesOf (t : Text) : Bytes :=
  Utf16.littleEndian (Utf16.encode t)

/-- The wide bytes of a text are those of its parts. -/
theorem wideBytesOf_append (s t : Text) :
    wideBytesOf (s ++ t) = wideBytesOf s ++ wideBytesOf t := by
  rw [wideBytesOf, Utf16.encode_append, Utf16.littleEndian_append]
  rfl

/-- The data of a string is that of the string with a closing zero. -/
theorem stringData_eq (s : Text) : stringData s = wideBytesOf (s ++ ['\x00']) := by
  have hzero : Utf16.encode ['\x00'] = [0] := by decide
  rw [stringData, wideBytesOf, Utf16.encode_append, hzero]

/-- The data of a string has two bytes for each unit and for the zero at the end. -/
theorem length_stringData (s : Text) :
    (stringData s).length = 2 * ((Utf16.encode s).length + 1) := by
  rw [stringData, Utf16.length_littleEndian, List.length_append]
  rfl

/-- Even an empty string has data, that of its zero. -/
theorem stringData_ne_nil (s : Text) : stringData s ≠ [] := by
  apply List.ne_nil_of_length_pos
  rw [length_stringData]
  omega

/-- The data of strings one behind the other. -/
theorem flatMap_stringData (texts : List Text) :
    texts.flatMap stringData = wideBytesOf (texts.flatMap (· ++ ['\x00'])) := by
  induction texts with
  | nil => rfl
  | cons t texts ih =>
      rw [List.flatMap_cons, List.flatMap_cons, ih, stringData_eq, wideBytesOf_append (t ++ _)]

namespace ValueData

/-- **What has been encoded is viewed without the zeros at its end**, also with a lone byte
behind it. -/
theorem textOf_encode (t : Text) (lone : Option UInt8) :
    textOf (wideBytesOf t ++ lone.toList) = t.trimZeros := by
  rw [textOf, wideBytesOf, Utf16.wholeUnits_littleEndian_append, Utf16.decodeUnits_encode]
  rfl

/-- The text of a string is read back without the zeros at its end, and a lone byte behind them is
dropped. -/
theorem textOf_stringData (s : Text) (lone : Option UInt8) :
    textOf (stringData s ++ lone.toList) = s.trimZeros := by
  rw [stringData_eq, textOf_encode, Text.trimZeros_concat]

/-- The view of a list of strings, each of which is stored with its closing zero. -/
theorem textsOf_stringData {texts : List Text} (h : ∀ t ∈ texts, t ≠ [] ∧ '\x00' ∉ t) :
    Text.fullPieces '\x00' (textOf (texts.flatMap stringData ++ Utf16.littleEndian [0])) =
      texts := by
  have hzero : Utf16.littleEndian [0] = wideBytesOf ['\x00'] := by decide
  have hdata : texts.flatMap stringData ++ Utf16.littleEndian [0] =
      wideBytesOf (texts.flatMap (· ++ ['\x00']) ++ ['\x00']) ++ Option.none.toList := by
    rw [flatMap_stringData, hzero, wideBytesOf_append, Option.toList_none, List.append_nil]
  rw [hdata, textOf_encode, Text.trimZeros_concat, Text.fullPieces_trimZeros,
    Text.fullPieces_joined h]

/-! ### Numbers -/

/-- The last bytes of a number, low byte first. -/
def numberBytes : Nat → Nat → Bytes
  | 0, _ => []
  | width + 1, n => UInt8.ofNat n :: numberBytes width (n / 256)

/-- A number has as many bytes as its width. -/
theorem length_numberBytes (width n : Nat) : (numberBytes width n).length = width := by
  induction width generalizing n with
  | zero => rfl
  | succ width ih => rw [numberBytes, List.length_cons, ih]

/-- **As many bytes as a number takes, or more, give the number.** -/
theorem littleEndian_numberBytes {width n : Nat} (h : n < Nat.pow 256 width) :
    littleEndian (numberBytes width n) = n := by
  induction width generalizing n with
  | zero =>
      have hzero : n = 0 := Nat.lt_one_iff.mp h
      rw [hzero]
      rfl
  | succ width ih =>
      have hbound : n < Nat.pow 256 width * 256 := h
      have hrest : n / 256 < Nat.pow 256 width := by omega
      have hcons : littleEndian (numberBytes (width + 1) n) =
          (UInt8.ofNat n).toNat + 256 * littleEndian (numberBytes width (n / 256)) := rfl
      rw [hcons, ih hrest, UInt8.toNat_ofNat']
      omega

/-- The bytes of a doubleword that an import stages. -/
theorem bytes_eq_numberBytes (value : UInt32) :
    Dword.bytes value = numberBytes 4 value.toNat := by
  simp only [Dword.bytes, numberBytes, Nat.div_div_eq_div_mul]

/-! ### Views -/

/-- Data of a string is shown as its text. -/
theorem ofBytes_string {bytes : Bytes} (h : bytes ≠ []) :
    ofBytes .string bytes = string (textOf bytes) := by
  rw [ofBytes, if_neg h]

/-- Data of a string with variables is shown as its text, too. -/
theorem ofBytes_expandString {bytes : Bytes} (h : bytes ≠ []) :
    ofBytes .expandString bytes = expandString (textOf bytes) := by
  rw [ofBytes, if_neg h]

/-- Data of a list of strings is shown as the pieces between its zeros. -/
theorem ofBytes_multiString {bytes : Bytes} (h : bytes ≠ []) :
    ofBytes .multiString bytes = multiString (Text.fullPieces '\x00' (textOf bytes)) := by
  rw [ofBytes, if_neg h]
  rfl

/-- The types of numbers: how many bytes a number has, and how it is viewed. -/
def numberView? : ValueType → Option (Nat × (Bytes → ValueData))
  | .dword => some (4, fun bytes => dword (UInt32.ofNat (littleEndian bytes)))
  | .dwordBigEndian => some (4, fun bytes => dwordBigEndian (UInt32.ofNat (bigEndian bytes)))
  | .qword => some (8, fun bytes => qword (UInt64.ofNat (littleEndian bytes)))
  | _ => Option.none

/-- Data of a number: too few bytes have no view as a number, and of more bytes the first are
viewed. -/
theorem ofBytes_number {type : ValueType} {width : Nat} {view : Bytes → ValueData} {bytes : Bytes}
    (htype : numberView? type = some (width, view)) (hne : bytes ≠ []) :
    ofBytes type bytes =
      if bytes.length < width then unknown bytes else view (bytes.take width) := by
  cases type with
  | dword | dwordBigEndian | qword =>
      cases htype
      rw [ofBytes, if_neg hne]
  | _ => cases htype

/-- Data of a number is shown by the bytes of its width, whatever stands behind them. -/
theorem ofBytes_number_append {type : ValueType} {width : Nat} {view : Bytes → ValueData}
    {bytes : Bytes} (htype : numberView? type = some (width, view)) (hne : bytes ≠ [])
    (hlength : bytes.length = width) (rest : Bytes) :
    ofBytes type (bytes ++ rest) = view bytes := by
  have hlong : ¬(bytes ++ rest).length < width := by
    rw [List.length_append]
    omega
  rw [ofBytes_number htype (List.append_ne_nil_of_left_ne_nil hne rest), if_neg hlong,
    List.take_left' hlength]

/-- Data that is too short for its number is shown as bytes. -/
theorem ofBytes_number_short {type : ValueType} {width : Nat} {view : Bytes → ValueData}
    {bytes : Bytes} (htype : numberView? type = some (width, view)) (hne : bytes ≠ [])
    (hshort : bytes.length < width) : ofBytes type bytes = unknown bytes := by
  rw [ofBytes_number htype hne, if_pos hshort]

/-- **A view gives back what has been stored.**  A string is shown without the zeros at its end,
with a lone byte behind it or not; a list of strings and a number are shown as they are; and bytes
that are too few for a number are shown as bytes. -/
theorem ofBytes_of_stored :
    (∀ s : Text, (stringData s).length = 2 * ((Utf16.encode s).length + 1) ∧
      (∃ n, s = s.trimZeros ++ List.replicate n '\x00') ∧
      s.trimZeros.getLast? ≠ some '\x00' ∧ (s.trimZeros = s ↔ s.getLast? ≠ some '\x00') ∧
      ∀ lone : Option UInt8,
        ofBytes .string (stringData s ++ lone.toList) = string s.trimZeros ∧
          ofBytes .expandString (stringData s ++ lone.toList) = expandString s.trimZeros) ∧
    (∀ texts : List Text, (∀ t ∈ texts, t ≠ [] ∧ '\x00' ∉ t) →
      ofBytes .multiString (texts.flatMap stringData ++ Utf16.littleEndian [0]) =
        multiString texts) ∧
    (∀ (v : UInt32) (rest : Bytes), ofBytes .dword (Dword.bytes v ++ rest) = dword v ∧
      ofBytes .dwordBigEndian ((Dword.bytes v).reverse ++ rest) = dwordBigEndian v) ∧
    (∀ (v : UInt64) (rest : Bytes), ofBytes .qword (numberBytes 8 v.toNat ++ rest) = qword v) ∧
    ∀ bytes : Bytes, bytes ≠ [] →
      (bytes.length < 4 →
        ofBytes .dword bytes = unknown bytes ∧ ofBytes .dwordBigEndian bytes = unknown bytes) ∧
      (bytes.length < 8 → ofBytes .qword bytes = unknown bytes) := by
  refine ⟨?_, ?_, ?_, ?_, ?_⟩
  · intro s
    refine ⟨length_stringData s, s.exists_eq_trimZeros, s.getLast?_trimZeros_ne,
      Text.trimZeros_eq_self_iff, ?_⟩
    intro lone
    have hne : stringData s ++ lone.toList ≠ [] :=
      List.append_ne_nil_of_left_ne_nil (stringData_ne_nil s) _
    rw [ofBytes_string hne, ofBytes_expandString hne, textOf_stringData]
    exact ⟨rfl, rfl⟩
  · intro texts h
    have hzero : Utf16.littleEndian [0] ≠ [] := by decide
    have hne := List.append_ne_nil_of_right_ne_nil (texts.flatMap stringData) hzero
    rw [ofBytes_multiString hne, textsOf_stringData h]
  · intro v rest
    have hlength := length_numberBytes 4 v.toNat
    have hnumber : littleEndian (numberBytes 4 v.toNat) = v.toNat :=
      littleEndian_numberBytes v.toNat_lt
    have hne : numberBytes 4 v.toNat ≠ [] := List.cons_ne_nil _ _
    constructor
    · rw [bytes_eq_numberBytes, ofBytes_number_append rfl hne hlength, hnumber, UInt32.ofNat_toNat]
    · have hlength' : (numberBytes 4 v.toNat).reverse.length = 4 := by
        rw [List.length_reverse, hlength]
      have hne' : (numberBytes 4 v.toNat).reverse ≠ [] := List.reverse_ne_nil_iff.mpr hne
      rw [bytes_eq_numberBytes, ofBytes_number_append rfl hne' hlength', bigEndian,
        List.reverse_reverse, hnumber, UInt32.ofNat_toNat]
  · intro v rest
    have hnumber : littleEndian (numberBytes 8 v.toNat) = v.toNat :=
      littleEndian_numberBytes v.toNat_lt
    have hne : numberBytes 8 v.toNat ≠ [] := List.cons_ne_nil _ _
    rw [ofBytes_number_append rfl hne (length_numberBytes 8 v.toNat), hnumber, UInt64.ofNat_toNat]
  · intro bytes hne
    constructor
    · intro hshort
      exact ⟨ofBytes_number_short rfl hne hshort, ofBytes_number_short rfl hne hshort⟩
    · intro hshort
      exact ofBytes_number_short rfl hne hshort

/-- A string with a pair of surrogates, zeros inside and at its end and a lone byte behind it; two
strings; numbers with more bytes behind them; and three bytes. -/
theorem ofBytes_of_stored_mixed :
    ofBytes .string (stringData "a\x00😀\x00\x00".toList ++ [0x41]) = string "a\x00😀".toList ∧
      ofBytes .multiString (["é".toList, "b😀".toList].flatMap stringData ++ [0, 0]) =
        multiString ["é".toList, "b😀".toList] ∧
      ofBytes .dword (Dword.bytes 0x12345678 ++ [9]) = dword 0x12345678 ∧
      ofBytes .dwordBigEndian ([0x12, 0x34, 0x56, 0x78] ++ [9]) = dwordBigEndian 0x12345678 ∧
      ofBytes .qword ([8, 7, 6, 5, 4, 3, 2, 1] ++ [9]) = qword 0x0102030405060708 ∧
      ofBytes .dwordBigEndian [1, 2, 3] = unknown [1, 2, 3] := by
  obtain ⟨hstring, hlist, hdword, hqword, hshort⟩ := ofBytes_of_stored
  obtain ⟨-, -, -, -, hshown⟩ := hstring "a\x00😀\x00\x00".toList
  have htrimmed : Text.trimZeros "a\x00😀\x00\x00".toList = "a\x00😀".toList := by decide
  refine ⟨?_, hlist _ (by decide), (hdword 0x12345678 [9]).1, (hdword 0x12345678 [9]).2,
    hqword 0x0102030405060708 [9], ((hshort [1, 2, 3] (by decide)).1 (by decide)).2⟩
  rw [← htrimmed]
  exact (hshown (some 0x41)).1

end ValueData

end RegistryText
