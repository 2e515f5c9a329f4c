import RegistryText.Proofs.Lines.PlainSplit

/-!
# Splitting and decoding

Lines are split between code units, and each is decoded on its own.  What is malformed is replaced
and not rejected, so an unfinished character in front of an end of a line could swallow the end,
and the next line could finish the character.

**Neither happens: splitting and decoding commute** (`splitsAsText_of_whole`), for narrow bytes in a
page that keeps ASCII and for the bytes of whole wide units, well-formed or not.  In UTF-8 and in
UTF-16 the reason is that the units of an end of a line close what is unfinished
(`Decoder.KeepsLineEnds`).  In a page of one byte for each character nothing is ever unfinished,
and any table will do that keeps ASCII (`AsciiTable`).

A lone byte behind wide units is decoded with the whole text but belongs to no line; hence the
even number of bytes.
-/

namespace RegistryText

/-! ### Whole units -/

/-- An even number of bytes is that of their units. -/
theorem Utf16.littleEndian_wholeUnits {bytes : Bytes} (h : 2 ∣ bytes.length) :
    littleEndian (wholeUnits bytes).1 = bytes := by
  fun_induction wholeUnits bytes with
  | case1 => rfl
  | case2 a => exact absurd (show 2 ∣ 1 from h) (by decide)
  | case3 a b rest r ih =>
      have hrest : 2 ∣ rest.length := (Nat.dvd_add_left (Nat.dvd_refl 2)).mp h
      have hunit : littleEndian (ByteOrder.little.unit a b :: r.1) =
          littleEndian [ByteOrder.little.unit a b] ++ littleEndian r.1 := rfl
      rw [hunit, littleEndian_unit, ih hrest]
      rfl

/-- The lines of whole units are those of the text that the bytes are. -/
theorem map_decodeUnits_wholeUnits {encoding : FileEncoding} {page : CodePage} {bytes : Bytes}
    (hpage : encoding = .narrow → page.KeepsAscii)
    (hwhole : encoding.unitSize ∣ bytes.length) :
    (linesOf carriageReturn lineFeed (encoding.wholeUnits bytes).1).map
        (encoding.decodeUnits page) = linesOf '\r' '\n' (encoding.decode page bytes) := by
  cases encoding with
  | narrow => exact map_decodeUnits_narrow (hpage rfl) bytes
  | wide =>
      -- The whole text is decoded from bytes, its lines from units.
      have hdecode : FileEncoding.wide.decode page bytes =
          Utf16.decodeUnits (Utf16.wholeUnits bytes).1 := by
        rw [← Utf16.decode_littleEndian, Utf16.littleEndian_wholeUnits hwhole]
        rfl
      rw [hdecode]
      exact map_decodeUnits_wide page _

/-- The lines of bytes are those of the text that the bytes are. -/
structure SplitsAsText (encoding : FileEncoding) (page : CodePage) (bytes : Bytes) : Prop where
  /-- Splitting the units and decoding each line gives the lines of the decoded text. -/
  plainLines_eq : plainLines encoding page bytes = linesOf '\r' '\n' (encoding.decode page bytes)
  /-- A line reader gives them too, in whatever pieces it gets the bytes. -/
  reader : ∀ {source : Source} {front behind : Bytes}, source.Delivers behind →
    front ++ behind = bytes → ∀ capacity,
      ((LineReader.ofSource source encoding page capacity).append front).SplitsInto behind
        (linesOf '\r' '\n' (encoding.decode page bytes))

/-- **Splitting and decoding commute**, malformed parts included: in a page that keeps ASCII, for
whole wide units, and with any table of one byte for each character that keeps ASCII. -/
theorem splitsAsText_of_whole :
    (∀ {encoding : FileEncoding} {page : CodePage} {bytes : Bytes},
      (encoding = .narrow → page.KeepsAscii) → encoding.unitSize ∣ bytes.length →
        SplitsAsText encoding page bytes) ∧
      ∀ (table : AsciiTable) (bytes : Bytes),
        (linesOf 0x0D 0x0A bytes).map table.decode = linesOf '\r' '\n' (table.decode bytes) := by
  refine ⟨fun {encoding page bytes} hpage hwhole => ?_, AsciiTable.map_decode_linesOf⟩
  have hlines := map_decodeUnits_wholeUnits hpage hwhole
  exact {
    plainLines_eq := (plainLines_eq encoding page bytes).trans hlines
    reader := by
      rintro source front behind hdelivers rfl capacity
      have hfaces := LineReader.faces_append_ofSource hdelivers encoding page capacity front
      have hread : ((LineReader.ofSource source encoding page capacity).append front).HasRead
          behind [] := .pieces (List.forall_mem_nil _) rfl rfl hdelivers rfl
      rw [← hlines]
      exact LineReader.splitsInto_of_faces hfaces hread rfl }

/-- A character of UTF-8 that breaks off in front of an end, whose last byte opens the next line;
and a pair of surrogates with an end between its halves. -/
theorem splitsAsText_of_whole_malformed :
    SplitsAsText .narrow .utf8 [0xE2, 0x82, 0x0D, 0x0A, 0xAC] ∧
      plainLines .narrow .utf8 [0xE2, 0x82, 0x0D, 0x0A, 0xAC] =
        [[replacementChar], [replacementChar]] ∧
      SplitsAsText .wide .utf8 [0x3D, 0xD8, 0x0D, 0x00, 0x00, 0xDE, 0x0A, 0x00, 0x41, 0x00] ∧
      plainLines .wide .utf8 [0x3D, 0xD8, 0x0D, 0x00, 0x00, 0xDE, 0x0A, 0x00, 0x41, 0x00] =
        [[replacementChar], [replacementChar], ['A']] :=
  ⟨splitsAsText_of_whole.1 (fun _ => .utf8 rfl) (by decide), by decide,
    splitsAsText_of_whole.1 nofun (by decide), by decide⟩

/-- A lone byte is replaced in the text and left out of the lines. -/
example : plainLines .wide .utf8 [0x41, 0x00, 0x42] = [['A']] ∧
    FileEncoding.wide.decode .utf8 [0x41, 0x00, 0x42] = ['A', replacementChar] := by decide

end RegistryText
