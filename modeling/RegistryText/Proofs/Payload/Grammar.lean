import Mathlib.Algebra.Group.Nat.Defs
import RegistryText.Proofs.Payload.Written
import RegistryText.Proofs.Text.Blanks

/-!
# The grammar of payloads

What a reader accepts is more than what a writer puts down: unknown escapes,
blanks and comments, commas at the end of a list of bytes.  The relations of
this file say declaratively what each form of a payload may be and what it
means, without the order in which a reader looks at it.

**Each reader accepts its grammar and nothing else**: escaped texts
(`Escaped.read?_eq_some_iff`), doublewords (`Dword.read?_eq_some_iff`), type tags
(`TypeTag.read?_eq_some_iff`) and single lines of a list of bytes
(`HexList.readLine_eq_some_iff`).
-/

namespace RegistryText

/-! ### Escaped texts -/

namespace Escaped

/-- What may stand between two quotes, the text that it means, and the unknown
escapes in it. -/
inductive Means : Text → Text → List Char → Prop
  | nil : Means [] [] []
  | plain {c : Char} {written t : Text} {unknown : List Char} (hquote : c ≠ '"')
      (hslash : c ≠ '\\') (tail : Means written t unknown) :
      Means (c :: written) (c :: t) unknown
  | known {c d : Char} {written t : Text} {unknown : List Char} (hmeaning : meaning? d = some c)
      (tail : Means written t unknown) : Means ('\\' :: d :: written) (c :: t) unknown
  | unknown {d : Char} {written t : Text} {unknown : List Char} (hmeaning : meaning? d = none)
      (tail : Means written t unknown) : Means ('\\' :: d :: written) (d :: t) (d :: unknown)

/-- What is read stands in front of the first quote that is not escaped. -/
theorem means_of_read? {t : Text} {u : Unescaped} (h : read? t = some u) :
    ∃ written, t = written ++ '"' :: u.rest ∧ Means written u.text u.unknown := by
  fun_induction read? t generalizing u with
  | case1 => cases h
  | case2 =>
      cases h
      exact ⟨[], rfl, .nil⟩
  | case3 c hquote => cases h
  | case4 d rest =>
      cases h
      exact ⟨[], rfl, .nil⟩
  | case5 d rest hquote ih =>
      obtain ⟨inner, hinner, rfl⟩ := Option.map_eq_some_iff.mp h
      obtain ⟨written, rfl, hmeans⟩ := ih hinner
      cases hmeaning : meaning? d with
      | some c => exact ⟨'\\' :: d :: written, by simp [Unescaped.escape, hmeaning],
          by simpa [Unescaped.escape, hmeaning] using .known hmeaning hmeans⟩
      | none => exact ⟨'\\' :: d :: written, by simp [Unescaped.escape, hmeaning],
          by simpa [Unescaped.escape, hmeaning] using .unknown hmeaning hmeans⟩
  | case6 c d rest hquote hslash ih =>
      obtain ⟨inner, hinner, rfl⟩ := Option.map_eq_some_iff.mp h
      obtain ⟨written, heq, hmeans⟩ := ih hinner
      exact ⟨c :: written, congrArg (c :: ·) heq, .plain hquote hslash hmeans⟩

/-- An escaped text is read up to the quote behind it. -/
theorem Means.read? {written t : Text} {unknown : List Char} (h : Means written t unknown)
    (rest : Text) : Escaped.read? (written ++ '"' :: rest) = some ⟨t, rest, unknown⟩ := by
  have hslash : ('\\' : Char) ≠ '"' := by decide
  induction h with
  | nil => cases rest <;> simp [Escaped.read?]
  | plain hquote hplain tail ih =>
      rw [List.cons_append, read?_plain hquote hplain (by simp), ih]
      rfl
  | known hmeaning tail ih =>
      simp only [List.cons_append, Escaped.read?, if_neg hslash, if_true, ih, Option.map_some,
        Unescaped.escape, hmeaning]
  | unknown hmeaning tail ih =>
      simp only [List.cons_append, Escaped.read?, if_neg hslash, if_true, ih, Option.map_some,
        Unescaped.escape, hmeaning]

/-- **Exactly an escaped text in front of a quote is read.** -/
theorem read?_eq_some_iff {t : Text} {u : Unescaped} :
    read? t = some u ↔
      ∃ written, t = written ++ '"' :: u.rest ∧ Means written u.text u.unknown := by
  constructor
  · exact means_of_read?
  · rintro ⟨written, rfl, hmeans⟩
    exact hmeans.read? u.rest

end Escaped

/-! ### Doublewords -/

theorem hexValue?_lt (c : Char) : (hexValue? c).getD 0 < 16 := by
  unfold hexValue?
  simp only [Char.le_def, UInt32.le_iff_toNat_le]
  have hcode : c.toNat = c.val.toNat := rfl
  split
  · next h =>
    have hnine : ('9' : Char).val.toNat = 57 := rfl
    simp only [Option.getD_some]
    omega
  split
  · next h =>
    have hf : ('f' : Char).val.toNat = 102 := rfl
    simp only [Option.getD_some]
    omega
  split
  · next h =>
    have hF : ('F' : Char).val.toNat = 70 := rfl
    simp only [Option.getD_some]
    omega
  · exact Nat.succ_pos 15

/-- A number is bounded by the number of its digits. -/
theorem Text.hexNumber_lt (digits : Text) : Text.hexNumber digits < 16 ^ digits.length := by
  have hfold : ∀ (digits : Text) (n : Nat),
      digits.foldl (fun n c => 16 * n + (hexValue? c).getD 0) n < (n + 1) * 16 ^ digits.length := by
    intro digits
    induction digits with
    | nil => intro n; simp
    | cons c digits ih =>
        intro n
        have hc := hexValue?_lt c
        calc (c :: digits).foldl (fun n c => 16 * n + (hexValue? c).getD 0) n
            < (16 * n + (hexValue? c).getD 0 + 1) * 16 ^ digits.length := ih _
          _ ≤ (16 * (n + 1)) * 16 ^ digits.length := Nat.mul_le_mul_right _ (by omega)
          _ = (n + 1) * 16 ^ (c :: digits).length := by
              rw [List.length_cons, Nat.pow_succ, Nat.mul_comm 16, Nat.mul_assoc,
                Nat.mul_comm 16]
  simpa [Text.hexNumber] using hfold digits 0

namespace Dword

/-- The payloads of a doubleword.  No digits stand for zero, but only in front of a
comment. -/
inductive Spelled : Text → UInt32 → Prop
  | digits {value : UInt32} {front digits behind : Text} (hfront : front.IsBlanks)
      (hdigits : HexWritten value.toNat digits) (hne : digits ≠ []) (hlength : digits.length ≤ 8)
      (hbehind : behind.IsTrailer) : Spelled (front ++ digits ++ behind) value
  | comment {front comment : Text} (hfront : front.IsBlanks) :
      Spelled (front ++ ';' :: comment) 0

end Dword

/-- A trailer begins with no digit. -/
theorem Text.IsTrailer.takeWhile {t : Text} (h : t.IsTrailer) :
    t.takeWhile isHexDigit = [] ∧ t.dropWhile isHexDigit = t := by
  have hfirst : ∀ {c : Char} (rest : Text), isHexDigit c = false →
      (c :: rest).takeWhile isHexDigit = [] ∧ (c :: rest).dropWhile isHexDigit = c :: rest := by
    intro c rest hc
    rw [List.takeWhile_cons_of_neg (by simp [hc]), List.dropWhile_cons_of_neg (by simp [hc])]
    exact ⟨rfl, rfl⟩
  obtain ⟨blanks, behind, hblanks, rfl, hbehind⟩ := h
  cases blanks with
  | nil =>
      rcases hbehind with rfl | ⟨comment, rfl⟩
      · exact ⟨rfl, rfl⟩
      · exact hfirst comment (by decide)
  | cons c blanks =>
      have hblank := hblanks c (by simp)
      refine hfirst (blanks ++ behind) ?_
      rw [Bool.eq_false_iff]
      intro hdigit
      rw [isBlank_of_isHexDigit hdigit] at hblank
      cases hblank

/-- Digits in front of a trailer are taken. -/
theorem HexWritten.takeWhile_trailer {n : Nat} {digits behind : Text} (h : HexWritten n digits)
    (hbehind : behind.IsTrailer) :
    (digits ++ behind).takeWhile isHexDigit = digits ∧
      (digits ++ behind).dropWhile isHexDigit = behind := by
  rw [List.takeWhile_append_of_pos h.all, List.dropWhile_append_of_pos h.all,
    hbehind.takeWhile.1, hbehind.takeWhile.2, List.append_nil]
  exact ⟨rfl, rfl⟩

namespace Dword

/-- Every spelling of a doubleword is read. -/
theorem Spelled.read? {t : Text} {value : UInt32} (h : Spelled t value) :
    Dword.read? t = some value := by
  cases h with
  | @digits _ front digits behind hfront hdigits hne hlength hbehind =>
      obtain ⟨c, rest, rfl⟩ := List.exists_cons_of_ne_nil hne
      have hblank := isBlank_of_isHexDigit (hdigits.all c (by simp))
      have hskip : Text.skipBlanks (front ++ (c :: rest) ++ behind) = c :: rest ++ behind := by
        rw [List.append_assoc, Text.skipBlanks_append hfront]
        exact Text.skipBlanks_cons hblank (rest ++ behind)
      obtain ⟨htake, hdrop⟩ := hdigits.takeWhile_trailer hbehind
      have hshort : ¬8 < (c :: rest).length := Nat.not_lt.mpr hlength
      simp only [Dword.read?, hskip, htake, hdrop, if_neg hshort, hdigits.number,
        UInt32.ofNat_toNat, Text.isTrailer_iff.mp hbehind, if_true]
      rfl
  | @comment front comment hfront =>
      have hskip : Text.skipBlanks (front ++ ';' :: comment) = ';' :: comment := by
        rw [Text.skipBlanks_append hfront, Text.skipBlanks_cons (by decide)]
      have htake : List.takeWhile isHexDigit (';' :: comment) = [] :=
        List.takeWhile_cons_of_neg (by decide)
      have hdrop : List.dropWhile isHexDigit (';' :: comment) = ';' :: comment :=
        List.dropWhile_cons_of_neg (by decide)
      have hend : Text.isEmptyOrComment (Text.skipBlanks (';' :: comment)) = true := by
        rw [Text.skipBlanks_cons (by decide)]
        rfl
      simp only [Dword.read?, hskip, htake, hdrop, hend, if_true]
      rfl

/-- Nothing else is read as a doubleword. -/
theorem spelled_of_read? {t : Text} {value : UInt32} (h : Dword.read? t = some value) :
    Spelled t value := by
  obtain ⟨front, hfront, heq⟩ := Text.exists_eq_skipBlanks t
  have hsplit : t.skipBlanks.takeWhile isHexDigit ++ t.skipBlanks.dropWhile isHexDigit =
      t.skipBlanks := List.takeWhile_append_dropWhile
  have hall : ∀ c ∈ t.skipBlanks.takeWhile isHexDigit, isHexDigit c = true :=
    List.all_eq_true.mp List.all_takeWhile
  simp only [Dword.read?] at h
  generalize t.skipBlanks.takeWhile isHexDigit = digits at h hsplit hall
  generalize t.skipBlanks.dropWhile isHexDigit = behind at h hsplit
  split at h
  · cases h
  next hne =>
  split at h
  · cases h
  next hlength =>
  split at h
  · next hend =>
    cases h
    have hbehind := Text.isTrailer_iff.mpr hend
    by_cases hdigits : digits = []
    · -- without digits the payload is a trailer that begins with no blank: a comment
      rw [hdigits, List.nil_append] at hsplit
      rw [hsplit, Text.skipBlanks_skipBlanks] at hend
      rcases Text.isEmptyOrComment_iff.mp hend with hnil | ⟨comment, hcomment⟩
      · exact absurd hnil hne
      · rw [hdigits, heq, hcomment]
        exact .comment hfront
    · have hbound : Text.hexNumber digits < UInt32.size :=
        Nat.lt_of_lt_of_le (Text.hexNumber_lt digits)
          (Nat.pow_le_pow_right (by decide) (Nat.not_lt.mp hlength))
      have hwritten : HexWritten (UInt32.ofNat (Text.hexNumber digits)).toNat digits :=
        ⟨hall, (UInt32.toNat_ofNat_of_lt' hbound).symm⟩
      rw [heq, ← hsplit, ← List.append_assoc]
      exact .digits hfront hwritten hdigits (Nat.not_lt.mp hlength) hbehind
  · cases h

/-- **Exactly the spellings of a doubleword are read.** -/
theorem read?_eq_some_iff {t : Text} {value : UInt32} :
    Dword.read? t = some value ↔ Spelled t value :=
  ⟨spelled_of_read?, Spelled.read?⟩

end Dword

/-! ### Type tags -/

namespace TypeTag

/-- A tag in front of a payload. -/
inductive Heads (payload : Text) : TypeTag → Text → Prop
  | string : Heads payload ⟨.string, .escapedText⟩ ('"' :: payload)
  | binary : Heads payload ⟨.binary, .hexList⟩ ("hex:".toList ++ payload)
  | dword : Heads payload ⟨.dword, .dword⟩ ("dword:".toList ++ payload)
  | typed {code : UInt32} {digits : Text} (hcode : HexWritten code.toNat digits)
      (hne : digits ≠ []) : Heads payload ⟨ValueType.ofCode code, .hexList⟩
        ("hex(".toList ++ digits ++ "):".toList ++ payload)

theorem heads_of_readTyped? {t payload : Text} {tag : TypeTag}
    (h : readTyped? t = some (tag, payload)) : Heads payload tag ("hex(".toList ++ t) := by
  have hsplit : t.takeWhile isHexDigit ++ t.dropWhile isHexDigit = t :=
    List.takeWhile_append_dropWhile
  have hall : ∀ c ∈ t.takeWhile isHexDigit, isHexDigit c = true :=
    List.all_eq_true.mp List.all_takeWhile
  simp only [readTyped?] at h
  generalize t.takeWhile isHexDigit = digits at h hsplit hall
  split at h
  · cases h
  next behind hafter =>
  split at h
  · cases h
  next hne =>
  split at h
  · next hcode =>
    cases h
    have hwritten : HexWritten (UInt32.ofNat (Text.hexNumber digits)).toNat digits :=
      ⟨hall, (UInt32.toNat_ofNat_of_lt' hcode).symm⟩
    rw [← hsplit, Text.after?_eq_some_iff.mp hafter, ← List.append_assoc, ← List.append_assoc]
    exact .typed hwritten hne
  · cases h

/-- What is read as a tag is one. -/
theorem heads_of_read? {t payload : Text} {tag : TypeTag} (h : read? t = some (tag, payload)) :
    Heads payload tag t := by
  unfold read? at h
  split at h
  · next behind hafter =>
    cases h
    exact Text.after?_eq_some_iff.mp hafter ▸ .string
  split at h
  · next behind hafter =>
    cases h
    exact Text.after?_eq_some_iff.mp hafter ▸ .binary
  split at h
  · next behind hafter =>
    cases h
    exact Text.after?_eq_some_iff.mp hafter ▸ .dword
  split at h
  · next rest hafter =>
    exact Text.after?_eq_some_iff.mp hafter ▸ heads_of_readTyped? h
  · cases h

/-- **Exactly the four tags are read.** -/
theorem read?_eq_some_iff {t payload : Text} {tag : TypeTag} :
    read? t = some (tag, payload) ↔ Heads payload tag t := by
  constructor
  · exact heads_of_read?
  · rintro (_ | _ | _ | ⟨hcode, hne⟩)
    · exact read?_string payload
    · rfl
    · exact read?_dword payload
    · exact read?_typed hcode hne payload

end TypeTag

/-! ### Lines of a list of bytes -/

namespace HexList

/-- A line of a list of bytes, how it ends, and the bytes in it. -/
inductive Spelled : Text → Ending → Bytes → Prop
  | stop {t : Text} (h : t.IsTrailer) : Spelled t .complete []
  | continued {front behind : Text} (hfront : front.IsBlanks) (hbehind : behind.IsTrailer) :
      Spelled (front ++ '\\' :: behind) .continued []
  | last {b : UInt8} {front digits behind : Text} (hfront : front.IsBlanks)
      (hb : ByteWritten b digits) (hbehind : behind.IsTrailer) :
      Spelled (front ++ digits ++ behind) .complete [b]
  | next {b : UInt8} {bytes : Bytes} {ending : Ending} {front digits blanks rest : Text}
      (hfront : front.IsBlanks) (hb : ByteWritten b digits) (hblanks : blanks.IsBlanks)
      (tail : Spelled rest ending bytes) :
      Spelled (front ++ digits ++ blanks ++ ',' :: rest) ending (b :: bytes)

/-- A byte is read from one digit or two. -/
theorem written_of_readByte? {c : Char} {rest behind : Text} {b : UInt8}
    (h : readByte? c rest = some (b, behind)) :
    ∃ digits, c :: rest = digits ++ behind ∧ ByteWritten b digits := by
  have hdigit : ∀ {d : Char} {v : Nat}, hexValue? d = some v → isHexDigit d = true ∧ v < 16 := by
    intro d v hd
    have hlt := hexValue?_lt d
    rw [hd] at hlt
    exact ⟨by simp [isHexDigit, hd], hlt⟩
  have hone : ∀ {high : Nat}, hexValue? c = some high → ByteWritten (UInt8.ofNat high) [c] := by
    intro high hhigh
    obtain ⟨hc, hlt⟩ := hdigit hhigh
    refine ⟨⟨by simpa using hc, ?_⟩, Or.inl rfl⟩
    have hsmall : high < 256 := by omega
    simp [Text.hexNumber, hhigh, Nat.mod_eq_of_lt hsmall]
  unfold readByte? at h
  split at h
  · cases h
  next high hhigh =>
  split at h
  · cases h
    exact ⟨[c], rfl, hone hhigh⟩
  next d rest' =>
  split at h
  · next low hlow =>
    cases h
    obtain ⟨hc, hhigh'⟩ := hdigit hhigh
    obtain ⟨hd, hlow'⟩ := hdigit hlow
    refine ⟨[c, d], rfl, ⟨⟨by simp [hc, hd], ?_⟩, Or.inr rfl⟩⟩
    have hsmall : 16 * high + low < 256 := by omega
    simp only [Text.hexNumber, List.foldl_cons, List.foldl_nil, hhigh, hlow, Option.getD_some,
      UInt8.toNat_ofNat']
    omega
  · cases h
    exact ⟨[c], rfl, hone hhigh⟩

/-- What stands in front of an item that ends its line. -/
theorem spelled_of_item_stop {line : Text} {ending : Ending} {last : Bytes}
    (h : item line = .stop ending last) : Spelled line ending last := by
  obtain ⟨front, hfront, heq⟩ := Text.exists_eq_skipBlanks line
  unfold item at h
  split at h
  · next hskip =>
    cases h
    exact .stop (Text.isTrailer_iff.mpr (by rw [hskip]; rfl))
  next c rest hskip =>
  rw [heq, hskip]
  split at h
  · next hcomment =>
    cases h
    exact .stop ⟨front, c :: rest, hfront, rfl, Or.inr ⟨rest, by rw [hcomment]⟩⟩
  split at h
  · next hslash =>
    split at h
    · next hend =>
      cases h
      rw [hslash]
      exact .continued hfront (Text.isTrailer_iff.mpr hend)
    · cases h
  split at h
  · cases h
  next b behind hread =>
  obtain ⟨digits, hdigits, hb⟩ := written_of_readByte? hread
  rw [hdigits, ← List.append_assoc]
  split at h
  · next hbehind =>
    cases h
    exact .last hfront hb (Text.isTrailer_iff.mpr (by rw [hbehind]; rfl))
  next d more hbehind =>
  split at h
  · next hcomment =>
    cases h
    exact .last hfront hb (Text.isTrailer_iff.mpr (by rw [hbehind, hcomment]; rfl))
  split at h <;> cases h

/-- What stands in front of the rest behind a byte and its comma. -/
theorem split_of_item_byte {line rest : Text} {b : UInt8} (h : item line = .byte b rest) :
    ∃ front digits blanks, front.IsBlanks ∧ ByteWritten b digits ∧ blanks.IsBlanks ∧
      line = front ++ digits ++ blanks ++ ',' :: rest := by
  obtain ⟨front, hfront, heq⟩ := Text.exists_eq_skipBlanks line
  unfold item at h
  split at h
  · cases h
  next c rest' hskip =>
  split at h
  · cases h
  split at h
  · split at h <;> cases h
  split at h
  · cases h
  next b' behind hread =>
  obtain ⟨digits, hdigits, hb⟩ := written_of_readByte? hread
  obtain ⟨blanks, hblanks, hbehind⟩ := Text.exists_eq_skipBlanks behind
  split at h
  · cases h
  next d more hmore =>
  split at h
  · cases h
  split at h
  · next hcomma =>
    cases h
    refine ⟨front, digits, blanks, hfront, hb, hblanks, ?_⟩
    rw [heq, hskip, hdigits, hbehind, hmore, hcomma]
    simp
  · cases h

/-- What is read from a line is spelled there. -/
theorem spelled_of_readLine {line : Text} {ending : Ending} {bytes : Bytes}
    (h : readLine line = (some ending, bytes)) : Spelled line ending bytes := by
  fun_induction readLine line generalizing bytes with
  | case1 line ending' last hitem =>
      cases h
      exact spelled_of_item_stop hitem
  | case2 line last hitem => cases h
  | case3 line b rest hitem hless r =>
      rename_i ih
      obtain ⟨front, digits, blanks, hfront, hb, hblanks, rfl⟩ := split_of_item_byte hitem
      obtain ⟨hending, rfl⟩ := Prod.mk.inj h
      exact .next hfront hb hblanks (ih (Prod.ext hending rfl))

/-- Blanks in front of an item are skipped. -/
theorem item_append {front : Text} (hfront : front.IsBlanks) (line : Text) :
    item (front ++ line) = item line := by
  unfold item
  rw [Text.skipBlanks_append hfront]

/-- What is found behind the digits of a byte. -/
theorem item_digits {b : UInt8} {digits behind : Text} (hb : ByteWritten b digits)
    (hbehind : ∀ d ∈ behind.head?, hexValue? d = none) :
    item (digits ++ behind) = match behind.skipBlanks with
      | [] => .stop .complete [b]
      | d :: more =>
          if d = ';' then .stop .complete [b]
          else if d = ',' then .byte b more
          else .fault [b] := by
  obtain ⟨c, digits, rfl⟩ := List.exists_cons_of_ne_nil hb.ne_nil
  have hc := hb.all c (by simp)
  have hsigns := ne_of_isHexDigit hc
  have hread := readByte?_of_written hb hbehind
  rw [List.cons_append, item, Text.skipBlanks_cons (isBlank_of_isHexDigit hc)]
  cases hrest : behind.skipBlanks <;>
    simp only [if_neg hsigns.1, if_neg hsigns.2.1, hread, hrest]

/-- A blank, a comma and a semicolon are no digits. -/
theorem head_ne_digit {blanks rest : Text} (hblanks : blanks.IsBlanks)
    (hrest : ∀ d ∈ rest.head?, hexValue? d = none) :
    ∀ d ∈ (blanks ++ rest).head?, hexValue? d = none := by
  cases blanks with
  | nil => simpa using hrest
  | cons c blanks =>
      intro d hd
      obtain rfl : c = d := by simpa using hd
      have hblank := hblanks c (by simp)
      cases hvalue : hexValue? c with
      | none => rfl
      | some v =>
          rw [isBlank_of_isHexDigit (by simp [isHexDigit, hvalue])] at hblank
          cases hblank

/-- A byte with blanks around it is found in front of a comma. -/
theorem item_comma {b : UInt8} {front digits blanks : Text} (hfront : front.IsBlanks)
    (hb : ByteWritten b digits) (hblanks : blanks.IsBlanks) (rest : Text) :
    item (front ++ digits ++ blanks ++ ',' :: rest) = .byte b rest := by
  have hnone : ∀ d ∈ (blanks ++ ',' :: rest).head?, hexValue? d = none :=
    head_ne_digit hblanks (by simp [hexValue?])
  have hskip : Text.skipBlanks (blanks ++ ',' :: rest) = ',' :: rest := by
    rw [Text.skipBlanks_append hblanks, Text.skipBlanks_cons (by decide)]
  rw [List.append_assoc, List.append_assoc, item_append hfront, item_digits hb hnone, hskip]
  rfl

/-- Every spelling of a line is read. -/
theorem Spelled.readLine {line : Text} {ending : Ending} {bytes : Bytes}
    (h : Spelled line ending bytes) : HexList.readLine line = (some ending, bytes) := by
  induction h with
  | @stop t h =>
      refine readLine_of_stop ?_
      unfold item
      rcases Text.isEmptyOrComment_iff.mp (Text.isTrailer_iff.mp h) with hnil | ⟨comment, hcomment⟩
      · rw [hnil]
      · rw [hcomment]
        rfl
  | @continued front behind hfront hbehind =>
      refine readLine_of_stop ?_
      have hslash : ('\\' : Char) ≠ ';' := by decide
      rw [item_append hfront, item, Text.skipBlanks_cons (by decide)]
      simp only [if_neg hslash, if_true, Text.isTrailer_iff.mp hbehind]
  | @last b front digits behind hfront hb hbehind =>
      refine readLine_of_stop ?_
      have hnone : ∀ d ∈ behind.head?, hexValue? d = none := by
        obtain ⟨blanks, tail, hblanks, rfl, htail⟩ := hbehind
        refine head_ne_digit hblanks ?_
        rcases htail with rfl | ⟨comment, rfl⟩
        · simp
        · simp [hexValue?]
      rw [List.append_assoc, item_append hfront, item_digits hb hnone]
      rcases Text.isEmptyOrComment_iff.mp (Text.isTrailer_iff.mp hbehind) with
        hnil | ⟨comment, hcomment⟩
      · rw [hnil]
      · rw [hcomment]
        rfl
  | @next b bytes ending front digits blanks rest hfront hb hblanks tail ih =>
      rw [readLine_of_byte (item_comma hfront hb hblanks rest), ih]

/-- **Exactly the spellings of a line are read.** -/
theorem readLine_eq_some_iff {line : Text} {ending : Ending} {bytes : Bytes} :
    HexList.readLine line = (some ending, bytes) ↔ Spelled line ending bytes :=
  ⟨spelled_of_readLine, Spelled.readLine⟩

/-- Blanks in front of a line are skipped. -/
theorem readLine_append {front : Text} (hfront : front.IsBlanks) (line : Text) :
    HexList.readLine (front ++ line) = HexList.readLine line := by
  have hitem := item_append hfront line
  cases h : item line with
  | stop ending last => rw [readLine_of_stop h, readLine_of_stop (hitem.trans h)]
  | byte b rest => rw [readLine_of_byte h, readLine_of_byte (hitem.trans h)]
  | fault last => rw [readLine_of_fault h, readLine_of_fault (hitem.trans h)]

theorem readLine_skipBlanks (line : Text) :
    HexList.readLine line.skipBlanks = HexList.readLine line := by
  obtain ⟨blanks, hblanks, hline⟩ := Text.exists_eq_skipBlanks line
  rw [hline, Text.skipBlanks_append hblanks, Text.skipBlanks_skipBlanks, readLine_append hblanks]

/-- The lines that continue a list of bytes to its end, and the bytes in them.  A
comment on a line of its own does not end the list. -/
inductive Continued : List Text → Bytes → Prop
  | comment {line : Text} {lines : List Text} {bytes : Bytes}
      (hcomment : line.skipBlanks.head? = some ';') (tail : Continued lines bytes) :
      Continued (line :: lines) bytes
  | last {line : Text} {bytes : Bytes} (hlist : line.skipBlanks.head? ≠ some ';')
      (h : Spelled line .complete bytes) : Continued [line] bytes
  | more {line : Text} {lines : List Text} {bytes more : Bytes}
      (hlist : line.skipBlanks.head? ≠ some ';') (h : Spelled line .continued bytes)
      (tail : Continued lines more) : Continued (line :: lines) (bytes ++ more)

end HexList

end RegistryText
