import RegistryText.Proofs.Import.ByteDependence
import RegistryText.Proofs.Lines.Sized

/-!
# Imports on a machine

An import of a source depends on the bytes alone, whatever the first size of the line buffer, as
long as numbers are taken as they are.  On a machine the buffer must fit: its bytes must be no more
than a machine can have.  **Then sizes cannot be told apart either** (`machineView_congr`), and
words make no difference to the lines that are read (`Importer.callsInWords_ofSource`).

With a size that does not fit a wide file may look empty, and the program may end before it has
imported anything (`not_machineView_congr`).
-/

namespace RegistryText

/-- The first line buffer for a file can be had.  For a file that is too short none is made. -/
def ImportOptions.Fits (options : ImportOptions) (bytes : Bytes) : Prop :=
  2 ≤ bytes.length → options.capacity.units * (fileEncoding bytes).unitSize ≤ maxBufferBytes

section View

variable {σ κ : Type} [RegistryStore σ κ]

/-- What can be seen of an import of a source on a machine, or why there is no importer; nothing
if the program has ended on the way. -/
def machineView (source : Source) (store : σ) (options : ImportOptions) :
    Except ImportError (Option (ImportView σ)) :=
  (Importer.ofSource (κ := κ) source store options).map fun m =>
    if m.sized.run.2.lines.sizing = .panics then none else some (Importer.view m.sized.run)

/-- A run whose first buffer can be had looks as if numbers were taken as they are. -/
theorem Importer.view_run_sized {m : Importer LineReader σ κ} (h : m.lines.sizing = .fits) :
    m.sized.run.2.lines.sizing = .fits ∧ view m.sized.run = view m.run := by
  have hlines : m.lines.sized = ⟨m.lines, .fits⟩ := congrArg (SizedReader.mk m.lines) h
  obtain ⟨rest, hrest, hrun⟩ := run_recast (m := m) m.report.encoding SizedReader.alike_fits
    RegistryStore.morphism_id hlines
  have hsized : m.recast (fun store => store) m.lines.sized m.report.encoding = m.sized := rfl
  have hencoding := m.encoding_run
  rw [hsized] at hrun
  rw [hrun]
  refine ⟨congrArg SizedReader.sizing hrest, ?_⟩
  simp only [view, recast, ← hencoding]

/-- An import on a machine is one of the bytes that its source delivers, if the first buffer can
be had. -/
theorem machineView_of_delivers {source : Source} {bytes : Bytes} (h : source.Delivers bytes)
    (store : σ) {options : ImportOptions} (hfits : options.Fits bytes) :
    machineView source store options = (viewOfBytes bytes store options.page).map some := by
  rw [← importView_of_delivers h store options, machineView, importView]
  by_cases hshort : bytes.length < 2
  · rw [Importer.ofSource_of_short h hshort]
    rfl
  obtain _ | ⟨first, _ | ⟨second, bytes⟩⟩ := bytes
  · simp at hshort
  · simp at hshort
  obtain ⟨rest, -, hm⟩ := Importer.ofSource_of_delivers (κ := κ) h store options
  have hsizing : (Importer.ofFirstBytes (κ := κ) first second rest store
      options).lines.sizing = .fits := by
    have hbytes := hfits (by simp)
    cases hencoding : FileEncoding.detect first second <;>
      simp only [fileEncoding, hencoding] at hbytes <;>
      simp only [Importer.ofFirstBytes, hencoding] <;>
      exact if_pos hbytes
  obtain ⟨hsized, hview⟩ := Importer.view_run_sized hsizing
  rw [hm]
  simp only [Except.map, hsized, hview]
  rfl

omit [RegistryStore σ κ] in
/-- The reader of an import makes its calls in words, if its first buffer can be had and the file
has less than 2^60 bytes. -/
theorem Importer.callsInWords_ofSource {source : Source} {bytes : Bytes}
    (h : source.Delivers bytes) {store : σ} {options : ImportOptions} (hfits : options.Fits bytes)
    (hsize : bytes.length < 2 ^ 60) {m : Importer LineReader σ κ}
    (hm : ofSource source store options = .ok m) : m.lines.CallsInWords := by
  by_cases hshort : bytes.length < 2
  · rw [ofSource_of_short h hshort] at hm
    cases hm
  obtain _ | ⟨first, _ | ⟨second, bytes⟩⟩ := bytes
  · simp at hshort
  · simp at hshort
  obtain ⟨rest, hrest, hofBytes⟩ := ofSource_of_delivers (κ := κ) h store options
  cases hofBytes.symm.trans hm
  have hbytes := hfits (by simp)
  have hline : ∀ front : Bytes, front.length ≤ 2 →
      longestLine (FileEncoding.detect first second) (front ++ bytes) < 2 ^ 60 := by
    intro front hfront
    have hle := longestLine_le_length (FileEncoding.detect first second) (front ++ bytes)
    simp only [List.length_cons, List.length_append] at hsize hle
    omega
  cases hencoding : FileEncoding.detect first second <;>
    simp only [fileEncoding, ofFirstBytes, hencoding] at hbytes hline ⊢
  · exact LineReader.callsInWords_append hrest [first, second] .narrow options.page hbytes
      (hline _ (Nat.le_refl 2))
  · rw [← LineReader.append_nil_ofSource]
    exact LineReader.callsInWords_append hrest [] .wide options.page hbytes
      (hline _ (Nat.zero_le 2))

/-- **Two sources of the same bytes cannot be told apart**, with whatever sizes of the line buffer
they are read that can be had: their imports have the same error, or the same outcome, state,
dialect, report and store, which are those of the bytes.  Of a file of less than 2^60 bytes all
lines are read in words. -/
theorem machineView_congr {source source' : Source} {bytes : Bytes} (h : source.Delivers bytes)
    (h' : source'.Delivers bytes) (store : σ) (options : ImportOptions) {units units' : UInt64}
    (hfits : (options.withBufferUnits units).Fits bytes)
    (hfits' : (options.withBufferUnits units').Fits bytes) :
    machineView source store (options.withBufferUnits units) =
        machineView source' store (options.withBufferUnits units') ∧
      machineView source store (options.withBufferUnits units) =
        (viewOfBytes bytes store options.page).map some ∧
      (bytes.length < 2 ^ 60 → ∀ m : Importer LineReader σ κ,
        Importer.ofSource source store (options.withBufferUnits units) = .ok m →
          m.lines.CallsInWords) := by
  have hbytes := machineView_of_delivers h store hfits
  have hbytes' := machineView_of_delivers h' store hfits'
  exact ⟨hbytes.trans hbytes'.symm, hbytes, fun hsize _ hm =>
    Importer.callsInWords_ofSource h hfits hsize hm⟩

end View

/-- Reads that take the mark apart, cut units in two and end between a carriage return and its
line feed. -/
def piecedSource : Source where
  segments := [.interruption, .data [0xFF], .interruption, .data [0xFE, 0x52],
    .data [0x00, 0x0D], .data [0x00], .interruption, .interruption, .data [0x0A, 0x00, 0x61],
    .data [0x00]]
  chunk := some 2

/-- They give what one read gives, with the smallest and with the largest buffer, and with the
smallest they are read in words. -/
theorem machineView_congr_of_pieces :
    piecedSource.Delivers [0xFF, 0xFE, 0x52, 0x00, 0x0D, 0x00, 0x0A, 0x00, 0x61, 0x00] ∧
      machineView piecedSource ({} : MemoryStore) (({} : ImportOptions).withBufferUnits 0) =
        machineView (.ofBytes [0xFF, 0xFE, 0x52, 0x00, 0x0D, 0x00, 0x0A, 0x00, 0x61, 0x00])
          ({} : MemoryStore) (({} : ImportOptions).withBufferUnits 0x3FFFFFFFFFFFFFFF) ∧
      ∀ m : Importer LineReader MemoryStore KeyHandle,
        Importer.ofSource piecedSource {} (({} : ImportOptions).withBufferUnits 0) = .ok m →
          m.lines.CallsInWords := by
  have hpieces : piecedSource.Delivers
      [0xFF, 0xFE, 0x52, 0x00, 0x0D, 0x00, 0x0A, 0x00, 0x61, 0x00] :=
    ⟨.interruption (.data (by decide) (.interruption (.data (by decide) (.data (by decide)
      (.data (by decide) (.interruption (.interruption (.data (by decide)
        (.data (by decide) .ended))))))))), by decide⟩
  have hsmallest : (({} : ImportOptions).withBufferUnits 0).Fits
      [0xFF, 0xFE, 0x52, 0x00, 0x0D, 0x00, 0x0A, 0x00, 0x61, 0x00] :=
    fun _ => by decide +kernel
  have hlargest : (({} : ImportOptions).withBufferUnits 0x3FFFFFFFFFFFFFFF).Fits
      [0xFF, 0xFE, 0x52, 0x00, 0x0D, 0x00, 0x0A, 0x00, 0x61, 0x00] :=
    fun _ => by decide +kernel
  obtain ⟨hsame, -, hwords⟩ := machineView_congr hpieces (Source.delivers_ofBytes _)
    ({} : MemoryStore) {} hsmallest hlargest
  exact ⟨hpieces, hsame, hwords (by decide)⟩

/-- A wide file of a header and a key. -/
def wideKeyFile : Bytes :=
  wideBytes (Utf16.encode "REGEDIT4\r\n[HKCU\\A]\r\n".toList)

/-- With a size that wraps it seems to have no lines, and with one that no buffer can have the
program ends. -/
theorem not_machineView_congr :
    ∃ view view' : ImportView MemoryStore,
      machineView (.ofBytes wideKeyFile) ({} : MemoryStore)
          (({} : ImportOptions).withBufferUnits 4096) = .ok (some view) ∧
        view.report.lines = 2 ∧ view.dialect = some .version4 ∧
      machineView (.ofBytes wideKeyFile) ({} : MemoryStore)
          (({} : ImportOptions).withBufferUnits 0x8000000000000001) = .ok (some view') ∧
        view'.report.lines = 0 ∧ view'.dialect = some .invalid ∧
      machineView (.ofBytes wideKeyFile) ({} : MemoryStore)
          (({} : ImportOptions).withBufferUnits 0x4000000000000000) = .ok none := by
  refine ⟨_, _, congrArg Except.ok (if_neg ?_), ?_, ?_, congrArg Except.ok (if_neg ?_), ?_, ?_,
    congrArg Except.ok (if_pos ?_)⟩
  all_goals decide +kernel

end RegistryText
