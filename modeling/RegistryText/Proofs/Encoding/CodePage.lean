import RegistryText.Encoding.CodePage
import RegistryText.Proofs.Encoding.Utf8

/-!
# Code pages that keep ASCII

In the single-byte pages and in UTF-8 a byte below 80 is an ASCII character
wherever it stands, and no other bytes give one.  So in these pages a file can
be cut at the bytes of line ends before it is decoded; in UTF-16 it cannot.

A page of one byte for each character is a table (`AsciiTable`).  Nothing is
ever unfinished in it, and it is enough that no byte but the two of the line
ends gives one of their characters.
-/

namespace RegistryText

/-- A character for each byte, such that the bytes below 80 are ASCII and no other byte is. -/
structure AsciiTable where
  char : UInt8 → Char
  ascii : ∀ {b}, b < 0x80 → char b = Char.ofNat b.toNat
  above : ∀ {b}, 0x80 ≤ b → 0x80 ≤ (char b).toNat

namespace AsciiTable

/-- Decode bytes one by one. -/
def decode (table : AsciiTable) (bytes : Bytes) : Text :=
  bytes.map table.char

theorem toNat_char (table : AsciiTable) {b : UInt8} (hb : b < 0x80) :
    (table.char b).toNat = b.toNat := by
  have hlt : b.toNat < 0x80 := hb
  rw [table.ascii hb, toNat_charOfNat (Or.inl (by omega))]

/-- A character of ASCII has one byte. -/
theorem char_eq_iff (table : AsciiTable) {a : UInt8} (ha : a < 0x80) (b : UInt8) :
    table.char b = table.char a ↔ b = a := by
  refine ⟨fun hchar => ?_, congrArg table.char⟩
  have hnumber := congrArg Char.toNat hchar
  rw [table.toNat_char ha] at hnumber
  by_cases hb : b < 0x80
  · rw [table.toNat_char hb] at hnumber
    exact UInt8.toNat_inj.mp hnumber
  · -- The character of such a byte lies above ASCII, and that of `a` does not.
    have habove := table.above (UInt8.not_lt.mp hb)
    have hlt : a.toNat < 0x80 := ha
    omega

/-- **With a table that keeps ASCII splitting and decoding commute.** -/
theorem map_decode_linesOf (table : AsciiTable) (bytes : Bytes) :
    (linesOf 0x0D 0x0A bytes).map table.decode = linesOf '\r' '\n' (table.decode bytes) := by
  have hcr : table.char 0x0D = '\r' := table.ascii (by decide)
  have hlf : table.char 0x0A = '\n' := table.ascii (by decide)
  have hlines := linesOf_map_of_ends (table.char_eq_iff (by decide : (0x0D : UInt8) < 0x80))
    (table.char_eq_iff (by decide : (0x0A : UInt8) < 0x80)) bytes
  rw [hcr, hlf] at hlines
  exact hlines.symm

end AsciiTable

namespace SingleBytePage

/-- The tables hold code points above ASCII. -/
theorem upper_above (page : SingleBytePage) :
    ∀ n ∈ page.upper, 0x80 ≤ n ∧ (n < 0xD800 ∨ 0xDFFF < n ∧ n < 0x110000) := by
  cases page <;> decide +kernel

/-- The pages that are spelled out are such tables. -/
def table (page : SingleBytePage) : AsciiTable where
  char := page.char
  ascii hb := if_pos hb
  above := by
    intro b hb
    have hentry : ∀ n : Nat, 0x80 ≤ n ∧ (n < 0xD800 ∨ 0xDFFF < n ∧ n < 0x110000) →
        0x80 ≤ (Char.ofNat n).toNat := fun n ⟨habove, hvalid⟩ => by rwa [toNat_charOfNat hvalid]
    rw [char, if_neg (UInt8.not_lt.mpr hb), List.getD_eq_getElem?_getD]
    cases hget : page.upper[b.toNat - 0x80]? with
    | none => exact hentry _ (by decide)
    | some n => exact hentry n (page.upper_above n (List.mem_of_getElem? hget))

end SingleBytePage

namespace CodePage

/-- The page keeps ASCII characters single bytes: it is a table that does, or UTF-8. -/
inductive KeepsAscii (page : CodePage) : Prop
  | table (table : AsciiTable) (h : page.decode = table.decode)
  | utf8 (h : page.decode = Utf8.decode)

/-- The single-byte pages that are spelled out keep ASCII. -/
theorem keepsAscii_singleByte (page : SingleBytePage) : (singleByte page).KeepsAscii :=
  .table page.table rfl

/-- **In a page that keeps ASCII the decoded lines of bytes are the lines of the
decoded text.** -/
theorem map_decode_linesOf {page : CodePage} (h : page.KeepsAscii) (bytes : Bytes) :
    (linesOf 0x0D 0x0A bytes).map page.decode = linesOf '\r' '\n' (page.decode bytes) := by
  cases h with
  | table table h =>
      rw [h]
      exact table.map_decode_linesOf bytes
  | utf8 h =>
      rw [h]
      exact Utf8.keepsLineEnds_decoder.map_decode_linesOf bytes

/-- Nothing is decoded to nothing. -/
theorem decode_nil (page : CodePage) : page.decode [] = [] := by
  cases page with
  | other page => exact List.eq_nil_of_length_eq_zero (Nat.le_zero.mp (page.length_le []))
  | _ => rfl

/-- One byte gives one character at most. -/
theorem length_decode_singleton (page : CodePage) (b : UInt8) : (page.decode [b]).length ≤ 1 := by
  cases page with
  | singleByte page => exact Nat.le_refl 1
  | utf16 order => exact Nat.le_refl 1
  | other page => exact page.length_le [b]
  | utf8 =>
      have hrun : Utf8.decode [b] = (Utf8.lead b).1 ++ Utf8.decoder.close (Utf8.lead b).2 := by
        show Utf8.decoder.run none [b] = _
        rw [Decoder.run_cons, Decoder.run_nil]
        rfl
      rw [decode, hrun]
      rcases Utf8.lead_cases b with ⟨-, hlead⟩ | hlead | ⟨p, hlead, -⟩ <;> rw [hlead] <;>
        simp [Utf8.decoder]

end CodePage

end RegistryText
