import Mathlib.Tactic.Ring
import RegistryText.Proofs.Payload.Grammar

/-!
# Hexadecimal numerals

A numeral is a row of digits in either case, and it denotes a number: the value of a digit is its
place in the alphabet of digits (`IsDigit`), and it counts as often as there are numerals of the
digits behind it (`Numeral`).  This says what a numeral is without the order in which a reader
takes its digits, and agrees with the reader (`numeral_iff`); a numeral may be of any length and
have any number of zeros in front.

**A type tag and a doubleword are read exactly when they are spelled by numerals within their
bounds** (`read?_iff_numeral`): the code of a tag may have any number of digits but only a value of
32 bits, a doubleword at most eight digits and perhaps none.
-/

namespace RegistryText

/-- The digits in the order of their values. -/
def hexAlphabet : Text :=
  "0123456789abcdef".toList

/-- A character is the digit of a value, in either case. -/
def IsDigit (c : Char) (value : Nat) : Prop :=
  hexAlphabet.idxOf? (Text.asciiLower c) = some value

/-- A row of digits and the number that it denotes. -/
inductive Numeral : Text → Nat → Prop
  | nil : Numeral [] 0
  | cons {c : Char} {digits : Text} {value n : Nat} (hdigit : IsDigit c value)
      (tail : Numeral digits n) : Numeral (c :: digits) (value * 16 ^ digits.length + n)

/-! ### Digits -/

theorem hexValue?_of_ascii : ∀ n < 128,
    hexValue? (Char.ofNat n) = hexAlphabet.idxOf? (Text.asciiLower (Char.ofNat n)) := by
  decide +kernel

theorem lt_of_mem_hexAlphabet {c : Char} (h : c ∈ hexAlphabet) : c.toNat < 128 := by
  have hall : hexAlphabet.all (fun c => c.toNat < 128) = true := by decide
  exact of_decide_eq_true (List.all_eq_true.mp hall c h)

/-- **The reader takes a digit for its place in the alphabet.** -/
theorem isDigit_iff {c : Char} {value : Nat} : IsDigit c value ↔ hexValue? c = some value := by
  have hsame : hexValue? c = hexAlphabet.idxOf? (Text.asciiLower c) := by
    by_cases hascii : c.toNat < 128
    · have hc := hexValue?_of_ascii c.toNat hascii
      rwa [Char.ofNat_toNat] at hc
    · have hreader : hexValue? c = none := by
        -- the digits end at f, the letters that have another case at Z
        have hbeyond : ∀ first last : Char, last.toNat < 128 → ¬(first ≤ c ∧ c ≤ last) := by
          intro first last hlast hc
          have hle : c.toNat ≤ last.toNat := hc.2
          omega
        rw [hexValue?, if_neg (hbeyond _ _ (by decide)), if_neg (hbeyond _ _ (by decide)),
          if_neg (hbeyond _ _ (by decide))]
      have hlower : Text.asciiLower c = c := by
        refine if_neg fun hc => ?_
        have hle : c.toNat ≤ 0x5A := hc.2
        omega
      have habsent : c ∉ hexAlphabet := fun hmem => hascii (lt_of_mem_hexAlphabet hmem)
      rw [hreader, hlower, List.idxOf?_eq_none_iff.mpr habsent]
  rw [IsDigit, hsame]

/-! ### Rows of digits -/

/-- The first digit counts as often as there are numerals of the digits behind it. -/
theorem Text.hexNumber_cons (c : Char) (digits : Text) :
    hexNumber (c :: digits) =
      (hexValue? c).getD 0 * 16 ^ digits.length + hexNumber digits := by
  have hfold : ∀ (digits : Text) (n : Nat),
      digits.foldl (fun n c => 16 * n + (hexValue? c).getD 0) n =
        n * 16 ^ digits.length + hexNumber digits := by
    intro digits
    induction digits with
    | nil => simp [hexNumber]
    | cons d digits ih =>
        intro n
        have hzero := ih (16 * 0 + (hexValue? d).getD 0)
        rw [hexNumber, List.foldl_cons, List.foldl_cons, ih, hzero, List.length_cons]
        ring
  calc hexNumber (c :: digits)
      = digits.foldl (fun n c => 16 * n + (hexValue? c).getD 0)
          (16 * 0 + (hexValue? c).getD 0) := rfl
    _ = (16 * 0 + (hexValue? c).getD 0) * 16 ^ digits.length + hexNumber digits := hfold _ _
    _ = (hexValue? c).getD 0 * 16 ^ digits.length + hexNumber digits := by
        rw [Nat.mul_zero, Nat.zero_add]

/-- **What is read from digits is the number that they denote.** -/
theorem numeral_iff {digits : Text} {n : Nat} : Numeral digits n ↔ HexWritten n digits := by
  constructor
  · intro h
    induction h with
    | nil => exact ⟨by simp, rfl⟩
    | @cons c digits value n hdigit tail ih =>
        have hvalue := isDigit_iff.mp hdigit
        refine ⟨List.forall_mem_cons.mpr ⟨?_, ih.all⟩, ?_⟩
        · rw [isHexDigit, hvalue]
          rfl
        · rw [Text.hexNumber_cons, hvalue, ih.number]
          rfl
  · intro h
    induction digits generalizing n with
    | nil =>
        rw [← h.number]
        exact .nil
    | cons c digits ih =>
        obtain ⟨hc, hdigits⟩ := List.forall_mem_cons.mp h.all
        obtain ⟨value, hvalue⟩ := Option.isSome_iff_exists.mp hc
        have htail := ih ⟨hdigits, rfl⟩
        rw [← h.number, Text.hexNumber_cons, hvalue]
        exact .cons (isDigit_iff.mpr hvalue) htail

theorem numeral_nil_iff {n : Nat} : Numeral [] n ↔ n = 0 := by
  constructor
  · intro h
    cases h
    rfl
  · intro h
    rw [h]
    exact .nil

/-- A number is written in any sufficient number of digits. -/
theorem numeral_hexPadded (letters : LetterCase) {width n : Nat} (h : n < 16 ^ width) :
    Numeral (Text.hexPadded letters width n) n ∧
      (Text.hexPadded letters width n).length = width := by
  obtain ⟨hwritten, hlength⟩ := hexWritten_hexPadded letters width h
  exact ⟨numeral_iff.mpr hwritten, hlength⟩

/-! ### Type tags -/

/-- The spelling of a type tag in front of a payload. -/
def TypeTag.SpelledBefore (payload : Text) (tag : TypeTag) (t : Text) : Prop :=
  (tag = ⟨.string, .escapedText⟩ ∧ t = '"' :: payload) ∨
    (tag = ⟨.binary, .hexList⟩ ∧ t = "hex:".toList ++ payload) ∨
    (tag = ⟨.dword, .dword⟩ ∧ t = "dword:".toList ++ payload) ∨
    ∃ digits n, digits ≠ [] ∧ Numeral digits n ∧ n < 2 ^ 32 ∧
      t = "hex(".toList ++ digits ++ "):".toList ++ payload ∧
      tag = ⟨ValueType.ofCode (UInt32.ofNat n), .hexList⟩ ∧ tag.declared.code.toNat = n

theorem TypeTag.heads_iff {payload t : Text} {tag : TypeTag} :
    Heads payload tag t ↔ SpelledBefore payload tag t := by
  constructor
  · intro h
    cases h with
    | string => exact Or.inl ⟨rfl, rfl⟩
    | binary => exact Or.inr (Or.inl ⟨rfl, rfl⟩)
    | dword => exact Or.inr (Or.inr (Or.inl ⟨rfl, rfl⟩))
    | @typed code digits hcode hne =>
        refine Or.inr (Or.inr (Or.inr ⟨digits, code.toNat, hne, numeral_iff.mpr hcode,
          code.toNat_lt, rfl, ?_, ?_⟩))
        · rw [UInt32.ofNat_toNat]
        · exact congrArg UInt32.toNat (ValueType.code_ofCode code)
  · intro h
    rcases h with ⟨rfl, rfl⟩ | ⟨rfl, rfl⟩ | ⟨rfl, rfl⟩ | ⟨digits, n, hne, hdigits, hn, rfl, rfl, -⟩
    · exact .string
    · exact .binary
    · exact .dword
    · have hcode : HexWritten (UInt32.ofNat n).toNat digits := by
        rw [UInt32.toNat_ofNat_of_lt' hn]
        exact numeral_iff.mp hdigits
      exact .typed hcode hne

/-! ### Doublewords -/

/-- The spelling of a doubleword: at most eight digits between blanks, and a comment or not; no
digits only in front of a comment. -/
structure Dword.SpelledBy (t : Text) (value : UInt32) (front digits behind tail : Text) :
    Prop where
  split : t = front ++ digits ++ behind ++ tail
  blanks : front.IsBlanks ∧ behind.IsBlanks
  numeral : Numeral digits value.toNat
  short : digits.length ≤ 8
  ending : (tail = [] ∧ digits ≠ []) ∨ ∃ comment, tail = ';' :: comment

theorem Dword.spelled_iff {t : Text} {value : UInt32} :
    Spelled t value ↔ ∃ front digits behind tail, SpelledBy t value front digits behind tail := by
  constructor
  · intro h
    cases h with
    | @digits _ front digits behind hfront hdigits hne hlength hbehind =>
        obtain ⟨blanks, tail, hblanks, rfl, htail⟩ := hbehind
        refine ⟨front, digits, blanks, tail, ?_, ⟨hfront, hblanks⟩, numeral_iff.mpr hdigits,
          hlength, htail.imp_left fun hnil => ⟨hnil, hne⟩⟩
        rw [List.append_assoc (front ++ digits)]
    | @comment front comment hfront =>
        have hnone : Text.IsBlanks [] := fun c hc => absurd hc List.not_mem_nil
        refine ⟨front, [], [], ';' :: comment, ?_, ⟨hfront, hnone⟩, .nil, Nat.zero_le 8,
          Or.inr ⟨comment, rfl⟩⟩
        rw [List.append_nil, List.append_nil]
  · intro h
    obtain ⟨front, digits, behind, tail, rfl, ⟨hfront, hbehind⟩, hdigits, hlength, htail⟩ := h
    by_cases hne : digits = []
    · obtain ⟨comment, rfl⟩ := htail.resolve_left fun hnone => hnone.2 hne
      have hblanks : Text.IsBlanks (front ++ behind) :=
        List.forall_mem_append.mpr ⟨hfront, hbehind⟩
      rw [hne] at hdigits ⊢
      have hzero : value = 0 := UInt32.toNat_inj.mp (numeral_nil_iff.mp hdigits)
      rw [hzero, List.append_nil]
      exact .comment hblanks
    · have htrailer : Text.IsTrailer (behind ++ tail) :=
        ⟨behind, tail, hbehind, rfl, htail.imp_left fun hnone => hnone.1⟩
      rw [List.append_assoc (front ++ digits)]
      exact .digits hfront (numeral_iff.mp hdigits) hne hlength htrailer

/-! ### Reading -/

/-- **Tags and doublewords are read exactly when they are spelled by numerals within their
bounds.**  Hence every spelling of a number of 32 bits in at most eight digits is read as that
number, with zeros in front or not, in either case and between blanks; and a number has spellings
of every sufficient length. -/
theorem read?_iff_numeral :
    (∀ (t payload : Text) (tag : TypeTag),
      TypeTag.read? t = some (tag, payload) ↔ TypeTag.SpelledBefore payload tag t) ∧
    (∀ (t : Text) (value : UInt32), Dword.read? t = some value ↔
      ∃ front digits behind tail, Dword.SpelledBy t value front digits behind tail) ∧
    (∀ (value : UInt32) (front digits behind : Text), front.IsBlanks → behind.IsBlanks →
      Numeral digits value.toNat → digits ≠ [] → digits.length ≤ 8 →
      Dword.read? (front ++ digits ++ behind) = some value) ∧
    ∀ (value : UInt32) (letters : LetterCase) (width : Nat), value.toNat < 16 ^ width →
      Numeral (Text.hexPadded letters width value.toNat) value.toNat ∧
        (Text.hexPadded letters width value.toNat).length = width := by
  have hdword : ∀ (t : Text) (value : UInt32), Dword.read? t = some value ↔
      ∃ front digits behind tail, Dword.SpelledBy t value front digits behind tail := by
    intro t value
    rw [Dword.read?_eq_some_iff, Dword.spelled_iff]
  refine ⟨?_, hdword, ?_, ?_⟩
  · intro t payload tag
    rw [TypeTag.read?_eq_some_iff, TypeTag.heads_iff]
  · intro value front digits behind hfront hbehind hdigits hne hlength
    refine (hdword _ _).mpr ⟨front, digits, behind, [], ?_, ⟨hfront, hbehind⟩, hdigits, hlength,
      Or.inl ⟨rfl, hne⟩⟩
    rw [List.append_nil]
  · intro value letters width hvalue
    exact numeral_hexPadded letters hvalue

/-- A code of ten digits and a doubleword between blanks, in both cases and with zeros in front;
and a code and a doubleword with one digit too many. -/
theorem read?_iff_numeral_mixed :
    TypeTag.read? "hex(000000000B):41".toList = some (⟨.qword, .hexList⟩, "41".toList) ∧
      Dword.read? "\t 00aBcD \t".toList = some 0xABCD ∧
      TypeTag.read? "hex(100000000):".toList = none ∧ Dword.read? "000000001".toList = none := by
  obtain ⟨htag, -, hspelled, -⟩ := read?_iff_numeral
  have hcode : Numeral "000000000B".toList 11 :=
    numeral_iff.mpr ⟨List.all_eq_true.mp (by decide), by decide⟩
  have hvalue : Numeral "00aBcD".toList 0xABCD :=
    numeral_iff.mpr ⟨List.all_eq_true.mp (by decide), by decide⟩
  have hblanks : ∀ c ∈ "\t ".toList ++ " \t".toList, isBlank c = true :=
    List.all_eq_true.mp (by decide)
  obtain ⟨hfront, hbehind⟩ := List.forall_mem_append.mp hblanks
  refine ⟨?_, ?_, by decide, by decide⟩
  · exact (htag _ _ _).mpr (Or.inr (Or.inr (Or.inr ⟨_, 11, by decide, hcode, by decide, rfl, rfl,
      rfl⟩)))
  · exact hspelled 0xABCD "\t ".toList "00aBcD".toList " \t".toList hfront hbehind hvalue
      (by decide) (by decide)

end RegistryText
