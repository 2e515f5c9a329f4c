import RegistryText.Proofs.Encoding.CodePage
import RegistryText.Proofs.Encoding.Utf16

/-!
# The lines of a file

A file is bytes.  Its first two bytes tell its encoding and are left out if they
are the byte order mark, what follows is cut into lines between code units, and
each line is decoded on its own.

`fileLines` says this in one go.  **For narrow text in a page that keeps ASCII
and for wide text it gives the lines of the decoded text**
(`fileLines_narrow`, `fileLines_wide`): cutting before decoding makes no
difference, ill-formed parts included.
-/

namespace RegistryText

/-- The encoding of a file: that of its first two bytes. -/
def fileEncoding : Bytes → FileEncoding
  | first :: second :: _ => FileEncoding.detect first second
  | _ => .narrow

/-- The bytes of the text of a file: all but a byte order mark. -/
def textBytes (bytes : Bytes) : Bytes :=
  match fileEncoding bytes with
  | .narrow => bytes
  | .wide => bytes.drop 2

/-- The lines of a file, cut between code units and decoded one by one. -/
def fileLines (page : CodePage) (bytes : Bytes) : List Text :=
  (linesOf carriageReturn lineFeed ((fileEncoding bytes).wholeUnits (textBytes bytes)).1).map
    ((fileEncoding bytes).decodeUnits page)

/-- A wide file of units: the byte order mark and the units, low byte first. -/
def wideBytes (units : List UInt16) : Bytes :=
  0xFF :: 0xFE :: Utf16.littleEndian units

theorem fileEncoding_wideBytes (units : List UInt16) :
    fileEncoding (wideBytes units) = .wide := by
  rfl

/-- A file that does not begin with the byte order mark is narrow. -/
theorem fileEncoding_of_take_ne {bytes : Bytes} (h : bytes.take 2 ≠ [0xFF, 0xFE]) :
    fileEncoding bytes = .narrow := by
  match bytes with
  | [] => rfl
  | [_] => rfl
  | first :: second :: rest =>
      have hmark : ¬(first = 0xFF ∧ second = 0xFE) := by
        rintro ⟨rfl, rfl⟩
        exact h rfl
      exact if_neg hmark

/-- Narrow units are split like their bytes. -/
theorem linesOf_map_toUInt16 (bytes : Bytes) :
    linesOf carriageReturn lineFeed (bytes.map UInt8.toUInt16) =
      (linesOf 0x0D 0x0A bytes).map (List.map UInt8.toUInt16) := by
  have hinjective : ∀ a b : UInt8, a.toUInt16 = b.toUInt16 → a = b := fun a b heq =>
    UInt8.toNat_inj.mp (by simpa using congrArg UInt16.toNat heq)
  have hcr : carriageReturn = UInt8.toUInt16 0x0D := by decide
  have hlf : lineFeed = UInt8.toUInt16 0x0A := by decide
  rw [hcr, hlf, linesOf_map hinjective]

/-- Narrow units are decoded like their bytes. -/
theorem decodeUnits_map_toUInt16 (page : CodePage) (bytes : Bytes) :
    FileEncoding.narrow.decodeUnits page (bytes.map UInt8.toUInt16) = page.decode bytes := by
  simp [FileEncoding.decodeUnits, FileEncoding.bytesOf, FileEncoding.decode, Function.comp_def]

/-- In a page that keeps ASCII the lines of narrow units are those of their text. -/
theorem map_decodeUnits_narrow {page : CodePage} (hpage : page.KeepsAscii) (bytes : Bytes) :
    (linesOf carriageReturn lineFeed (bytes.map UInt8.toUInt16)).map
        (FileEncoding.narrow.decodeUnits page) = linesOf '\r' '\n' (page.decode bytes) := by
  have hdecode : FileEncoding.narrow.decodeUnits page ∘ List.map UInt8.toUInt16 = page.decode := by
    funext line
    exact decodeUnits_map_toUInt16 page line
  rw [linesOf_map_toUInt16, List.map_map, hdecode, CodePage.map_decode_linesOf hpage]

/-- The lines of wide units are those of their text. -/
theorem map_decodeUnits_wide (page : CodePage) (units : List UInt16) :
    (linesOf carriageReturn lineFeed units).map (FileEncoding.wide.decodeUnits page) =
      linesOf '\r' '\n' (Utf16.decodeUnits units) := by
  have hdecode : FileEncoding.wide.decodeUnits page = Utf16.unitDecoder.decode := by
    funext line
    exact Utf16.decode_littleEndian line
  rw [hdecode]
  exact Utf16.keepsLineEnds_unitDecoder.map_decode_linesOf units

/-- The lines of narrow text. -/
theorem fileLines_narrow {page : CodePage} (hpage : page.KeepsAscii) {bytes : Bytes}
    (h : fileEncoding bytes = .narrow) :
    fileLines page bytes = linesOf '\r' '\n' (page.decode bytes) := by
  simp only [fileLines, textBytes, h, FileEncoding.wholeUnits]
  exact map_decodeUnits_narrow hpage bytes

/-- The lines of wide text. -/
theorem fileLines_wide (page : CodePage) (units : List UInt16) :
    fileLines page (wideBytes units) = linesOf '\r' '\n' (Utf16.decodeUnits units) := by
  have hbytes : (wideBytes units).drop 2 = Utf16.littleEndian units := rfl
  simp only [fileLines, textBytes, fileEncoding_wideBytes, FileEncoding.wholeUnits, hbytes,
    Utf16.wholeUnits_littleEndian]
  exact map_decodeUnits_wide page units

/-- A file that is too short for an import has no line of more than one character. -/
theorem length_le_of_mem_fileLines {page : CodePage} {bytes : Bytes} (hshort : bytes.length < 2)
    {line : Text} (hline : line ∈ fileLines page bytes) : line.length ≤ 1 := by
  match bytes with
  | [] => cases hline
  | [b] =>
      have hone : fileLines page [b] =
          (if b.toUInt16 = lineFeed ∨ b.toUInt16 = carriageReturn then [[]] else [[b.toUInt16]]).map
            (FileEncoding.narrow.decodeUnits page) := rfl
      rw [hone] at hline
      split at hline
      · obtain rfl : line = page.decode [] := List.mem_singleton.mp hline
        rw [page.decode_nil]
        exact Nat.zero_le 1
      · obtain rfl : line = page.decode [b.toUInt16.toUInt8] := List.mem_singleton.mp hline
        exact page.length_decode_singleton _
  | _ :: _ :: _ =>
      simp only [List.length_cons] at hshort
      omega

/-- A file with a line of two characters has two bytes at least. -/
theorem two_le_of_mem_fileLines {page : CodePage} {bytes : Bytes} {line : Text}
    (hline : line ∈ fileLines page bytes) (htwo : 2 ≤ line.length) : 2 ≤ bytes.length := by
  refine Nat.le_of_not_lt fun hshort => ?_
  have hlength := length_le_of_mem_fileLines hshort hline
  omega

/-- Text in UTF-8 never looks like a wide file. -/
theorem fileEncoding_utf8 (t : Text) : fileEncoding (Utf8.encode t) = .narrow := by
  refine fileEncoding_of_take_ne fun hmark => ?_
  have hmem : (0xFF : UInt8) ∈ Utf8.encode t :=
    List.mem_of_mem_take (show (0xFF : UInt8) ∈ (Utf8.encode t).take 2 by simp [hmark])
  obtain ⟨c, -, hc⟩ := List.mem_flatMap.mp hmem
  exact absurd (Utf8.lt_of_mem_encodeChar hc) (by decide)

/-- The files of a text for a reader with a page: wide text, and UTF-8 if that is
the page. -/
inductive FileOf (page : CodePage) (text : Text) : Bytes → Prop
  | wide : FileOf page text (wideBytes (Utf16.encode text))
  | utf8 (hpage : page = .utf8) : FileOf page text (Utf8.encode text)

/-- **The lines of a file of a text are those of the text.** -/
theorem FileOf.fileLines_eq {page : CodePage} {text : Text} {bytes : Bytes}
    (h : FileOf page text bytes) : fileLines page bytes = linesOf '\r' '\n' text := by
  cases h with
  | wide => rw [fileLines_wide, Utf16.decodeUnits_encode]
  | utf8 hpage =>
      subst hpage
      rw [fileLines_narrow (.utf8 rfl) (fileEncoding_utf8 text), CodePage.decode, Utf8.decode_encode]

/-- A text of two characters has a file that is long enough to be imported. -/
theorem FileOf.two_le_length {page : CodePage} {text : Text} {bytes : Bytes}
    (h : FileOf page text bytes) (htext : 2 ≤ text.length) : 2 ≤ bytes.length := by
  cases h with
  | wide => exact Nat.le_add_left _ _
  | utf8 hpage => exact Nat.le_trans htext (Utf8.length_le_encode text)

end RegistryText
