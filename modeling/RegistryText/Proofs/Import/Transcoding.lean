import RegistryText.Proofs.Import.ByteDependence

/-!
# Imports of transcoded files

A narrow file in a page that keeps ASCII can be written as wide text: decode
it and encode its characters in UTF-16 behind a byte order mark.  The two files
have different bytes, and their lines are cut between different units, but the
lines are the same.  **So the imports of the two cannot be told apart but by the
encoding in their reports**, ill-formed parts of the narrow file included.
-/

namespace RegistryText

/-- The wide file of a narrow one. -/
def transcode (page : CodePage) (bytes : Bytes) : Bytes :=
  wideBytes (Utf16.encode (page.decode bytes))

/-- A narrow file and its wide one have the same lines. -/
theorem fileLines_transcode {page : CodePage} (hpage : page.KeepsAscii) (page' : CodePage)
    {bytes : Bytes} (hnarrow : fileEncoding bytes = .narrow) :
    fileLines page' (transcode page bytes) = fileLines page bytes := by
  rw [transcode, fileLines_wide, Utf16.decodeUnits_encode, fileLines_narrow hpage hnarrow]

/-- A view of an import with another encoding in its report. -/
def ImportView.withEncoding {σ : Type} (view : ImportView σ) (encoding : FileEncoding) :
    ImportView σ :=
  { view with report := { view.report with encoding := encoding } }

section View

variable {σ κ : Type} [RegistryStore σ κ]

/-- The encoding shows in the report and nowhere else. -/
theorem view_run_ofLines (encoding encoding' : FileEncoding) (lines : List Text) (store : σ) :
    Importer.view (Importer.ofLines (κ := κ) encoding' lines store).run =
      (Importer.view (Importer.ofLines (κ := κ) encoding lines store).run).withEncoding
        encoding' := by
  obtain ⟨rest, -, hrun⟩ := Importer.run_recast
    (m := Importer.ofLines (κ := κ) encoding lines store) encoding'
    LineSupply.alike_eq RegistryStore.morphism_id rfl
  have hrecast : (Importer.ofLines (κ := κ) encoding lines store).recast (fun store => store)
      (Importer.ofLines (κ := κ) encoding lines store).lines encoding' =
      Importer.ofLines encoding' lines store := rfl
  rw [hrecast] at hrun
  rw [hrun]
  rfl

/-- **Transcoding a file does not change its import.**  A source of a narrow file
and one of its wide file lead to the same outcome, state, dialect and store, and
to reports that differ in the encoding only. -/
theorem importView_transcode {options options' : ImportOptions}
    (hpage : options.page.KeepsAscii) {bytes : Bytes} (hlength : 2 ≤ bytes.length)
    (hmark : bytes.take 2 ≠ [0xFF, 0xFE]) {source source' : Source} (h : source.Delivers bytes)
    (h' : source'.Delivers (transcode options.page bytes)) (store : σ) :
    ∃ view, importView source store options = .ok view ∧ view.report.encoding = .narrow ∧
      importView source' store options' = .ok (view.withEncoding .wide) := by
  have hnarrow := fileEncoding_of_take_ne hmark
  have hwide : 2 ≤ (transcode options.page bytes).length := by simp [transcode, wideBytes]
  have hview := importView_of_delivers h store options
  have hview' := importView_of_delivers h' store options'
  rw [viewOfBytes, if_neg (by omega), hnarrow] at hview
  rw [viewOfBytes, if_neg (by omega), fileLines_transcode hpage options'.page hnarrow, transcode,
    fileEncoding_wideBytes, view_run_ofLines .narrow .wide] at hview'
  exact ⟨_, hview, Importer.encoding_run _, hview'⟩

end View

/-- An unfinished character in front of a line feed is replaced in both files, and a letter above
ASCII in front of a carriage return is the same in both. -/
theorem importView_transcode_unfinished :
    (transcode .utf8 [0x52, 0xE2, 0x82, 0x0A, 0x5B] =
        [0xFF, 0xFE, 0x52, 0x00, 0xFD, 0xFF, 0x0A, 0x00, 0x5B, 0x00] ∧
      ∃ view, importView (.ofBytes [0x52, 0xE2, 0x82, 0x0A, 0x5B]) ({} : MemoryStore)
          { page := .utf8 } = .ok view ∧ view.report.encoding = .narrow ∧
        importView (.ofBytes (transcode .utf8 [0x52, 0xE2, 0x82, 0x0A, 0x5B]))
          ({} : MemoryStore) {} = .ok (view.withEncoding .wide)) ∧
    transcode (.singleByte .windows1251) [0x52, 0x80, 0x0D, 0x5B] =
        [0xFF, 0xFE, 0x52, 0x00, 0x02, 0x04, 0x0D, 0x00, 0x5B, 0x00] ∧
      ∃ view, importView (.ofBytes [0x52, 0x80, 0x0D, 0x5B]) ({} : MemoryStore)
          { page := .singleByte .windows1251 } = .ok view ∧ view.report.encoding = .narrow ∧
        importView (.ofBytes (transcode (.singleByte .windows1251) [0x52, 0x80, 0x0D, 0x5B]))
          ({} : MemoryStore) {} = .ok (view.withEncoding .wide) :=
  ⟨⟨by decide, importView_transcode (.utf8 rfl) (by decide) (by decide)
      (Source.delivers_ofBytes _) (Source.delivers_ofBytes _) _⟩,
    by decide, importView_transcode (CodePage.keepsAscii_singleByte .windows1251) (by decide)
      (by decide) (Source.delivers_ofBytes _) (Source.delivers_ofBytes _) _⟩

end RegistryText
