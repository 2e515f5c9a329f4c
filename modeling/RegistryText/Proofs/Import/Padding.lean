import RegistryText.Proofs.Import.Comments
import RegistryText.Proofs.Import.Removal
import RegistryText.Proofs.Import.SameReading
import RegistryText.Proofs.Payload.Padding

/-!
# Blanks around lines

Blanks in front of a line are skipped, and blanks behind it are cut off in front of the data of
a value, stand behind the last bracket of a key, or end a line of a list of bytes: each part of
the grammar gets rid of them in its own way, and none of them where it finds a fault.  **A line
with blanks around it reads like the line** (`Text.Padded.sameReading`), whether it makes sense
or not.  So blanks around the lines of a structured file never matter (`importView_of_padded`).
-/

namespace RegistryText

/-! ### Readings of padded lines -/

namespace Reading

variable {back : Text} (hback : back.IsBlanks)
include hback

theorem ofAssignment_blanks (name : Option Text) (rest : Text) :
    ofAssignment name (rest ++ back) = ofAssignment name rest := by
  rw [ofAssignment, ofAssignment, Text.skipBlanks_blanks hback]
  cases hskip : rest.skipBlanks with
  | nil => rfl
  | cons c behind =>
      rw [if_neg (List.cons_ne_nil c behind), List.cons_append]
      by_cases hequals : c = '='
      · -- all blanks behind the equals sign are cut off, whichever side they belong to
        have htrim : (Text.skipBlanks (behind ++ back)).trimBlanksRight =
            (Text.skipBlanks behind).trimBlanksRight := by
          rw [Text.skipBlanks_blanks hback]
          split
          next hnone => rw [hnone]
          next => exact Text.trimBlanksRight_blanks hback _
        simp only [hequals, Text.after?, if_true, htrim]
      · simp only [Text.after?, if_neg (Ne.symm hequals)]

theorem ofQuoted_blanks (rest : Text) : ofQuoted (rest ++ back) = ofQuoted rest := by
  rw [ofQuoted, ofQuoted, Escaped.read?_blanks hback]
  cases Escaped.read? rest with
  | none => rfl
  | some name => exact congrArg (behind name.unknown) (ofAssignment_blanks hback _ _)

theorem ofBracket_blanks (rest : Text) : ofBracket (rest ++ back) = ofBracket rest := by
  have hname : Importer.bracketed? (rest ++ back) = Importer.bracketed? rest := by
    have hlast : (rest ++ back).beforeLast? ']' = rest.beforeLast? ']' :=
      Text.beforeLast?_append (hback.not_mem (by decide)) rest
    rw [Importer.bracketed?, Importer.bracketed?, hlast]
    cases rest with
    | nil => simp [Text.beforeLast?]
    | cons c rest => rfl
  rw [ofBracket, ofBracket, hname]

theorem ofLine_blanks (line : Text) : ofLine (line ++ back) = ofLine line := by
  have hskip := Text.skipBlanks_blanks hback line
  cases hline : line.skipBlanks with
  | nil => rw [ofLine, ofLine, hskip, hline, if_pos rfl]
  | cons c rest =>
      rw [hline, if_neg (List.cons_ne_nil c rest), List.cons_append] at hskip
      rw [ofLine_of_cons hskip, ofLine_of_cons hline, ofBracket_blanks hback,
        ofAssignment_blanks hback, ofQuoted_blanks hback]

end Reading

/-- The text with blanks in front of it and behind it. -/
def Text.Padded (t t' : Text) : Prop :=
  ∃ front back : Text, front.IsBlanks ∧ back.IsBlanks ∧ t' = front ++ t ++ back

/-- **Blanks around a line are not seen.** -/
theorem Text.Padded.sameReading {line line' : Text} (h : Text.Padded line line') :
    SameReading line line' := by
  obtain ⟨front, back, hfront, hback, rfl⟩ := h
  have hskip : (front ++ line ++ back).skipBlanks = (line ++ back).skipBlanks := by
    rw [List.append_assoc, skipBlanks_append hfront]
  refine ⟨?_, ?_, ?_⟩
  · rw [Reading.ofLine, hskip]
    exact Reading.ofLine_blanks hback line
  · rw [hskip, startsWith_blanks hback]
  · rw [hskip, HexList.readLine_skipBlanks, HexList.readLine_skipBlanks,
      HexList.readLine_blanks hback]

/-- Blanks in front of a header are not seen. -/
theorem Dialect.ofHeader_append {indent : Text} (hindent : indent.IsBlanks) (header : Text) :
    ofHeader (indent ++ header) = ofHeader header := by
  rw [ofHeader, Text.skipBlanks_append hindent, ofHeader]

/-! ### Files -/

/-- The view of a run that retells another one. -/
theorem Importer.view_of_retells {ρ ρ' σ κ : Type} {L : ρ → ρ' → Prop}
    {ran : Except ImportError Unit × Importer ρ σ κ}
    {ran' : Except ImportError Unit × Importer ρ' σ κ} (houtcome : ran'.1 = ran.1)
    (h : Retells L ran.2 ran'.2) :
    view ran' = { view ran with
      report := { (view ran).report with encoding := ran'.2.report.encoding } } := by
  have hdialect : ran'.2.dialect = ran.2.dialect := congrArg dialect h.same
  simp only [view, houtcome, h.state, h.store, hdialect, ← h.report]

/-- **Surrounding blanks never matter in a structured file.**  Take a file behind a structured
header, put spaces and tabs around any lines of its body, whatever they are, and in front of its
header.  The import has the same outcome and ends in the same state, and it leaves the same
store, its log included, and the same report; only the encoding in it is that of the file. -/
theorem importView_of_padded {σ κ : Type} [RegistryStore σ κ] {source source' : Source}
    {bytes bytes' : Bytes} (h : source.Delivers bytes) (h' : source'.Delivers bytes')
    (store : σ) (options : ImportOptions) {indent header : Text} {body body' : List Text}
    (hlines : fileLines options.page bytes = header :: body)
    (hlines' : fileLines options.page bytes' = (indent ++ header) :: body')
    (hstructured : (Dialect.ofHeader header).isStructured = true)
    (hindent : indent.IsBlanks) (hbody : List.Forall₂ Text.Padded body body') :
    ∃ view, importView source store options = .ok view ∧
      view.report.encoding = fileEncoding bytes ∧
      importView source' store options = .ok { view with
        report := { view.report with encoding := fileEncoding bytes' } } := by
  have hheader := Dialect.ofHeader_append hindent header
  have himport : (Dialect.ofHeader header).isImportable = true := by
    revert hstructured
    cases Dialect.ofHeader header <;> decide
  have hlong : 2 ≤ bytes.length := two_le_of_mem_fileLines (hlines ▸ List.mem_cons_self)
    (Importer.two_le_of_isImportable himport)
  have hlong' : 2 ≤ bytes'.length := two_le_of_mem_fileLines (hlines' ▸ List.mem_cons_self)
    (Importer.two_le_of_isImportable (hheader ▸ himport))
  have hread : List.Forall₂ SameReading body body' :=
    hbody.imp fun _ _ hline => hline.sameReading
  obtain ⟨houtcome, hrelated⟩ := Importer.run_of_sameReading (κ := κ) (fileEncoding bytes)
    (fileEncoding bytes') store hheader hstructured hread
  have hview := Importer.view_of_retells houtcome hrelated
  rw [Importer.encoding_run] at hview
  rw [importView_of_delivers h, importView_of_delivers h', viewOfBytes, viewOfBytes,
    if_neg (Nat.not_lt.mpr hlong), if_neg (Nat.not_lt.mpr hlong'), hlines, hlines']
  refine ⟨_, rfl, ?_, ?_⟩
  · exact Importer.encoding_run (κ := κ) _
  · exact congrArg Except.ok hview

/-- A key, a list of bytes over three lines with a comment in it, and three lines that are void. -/
def unpaddedText : Text :=
  "REGEDIT4\n[HKCU\\A]\n\"h\"=hex:01,\\\n;2\n02\n\"u\n\"s\"=\"a\\\n\"d\"=dword:\n".toList

/-- The file with blanks around its lines. -/
def paddedText : Text :=
  " \tREGEDIT4\n\t[HKCU\\A] \n \"h\"=hex:01,\\ \t\n\t;2 \n 02 \n".toList ++
    "\"u \n \"s\"=\"a\\ \n\"d\"=dword: \n".toList

/-- The blanks are not seen in what the import of the file leaves and notes. -/
theorem importView_of_paddedText :
    ∃ view, importView (.ofBytes (Utf8.encode unpaddedText)) ({} : MemoryStore) {} = .ok view ∧
      view.report.encoding = .narrow ∧
      importView (.ofBytes (Utf8.encode paddedText)) ({} : MemoryStore) {} = .ok { view with
        report := { view.report with encoding := .narrow } } := by
  have hlines : fileLines (.singleByte .windows1252) (Utf8.encode unpaddedText) =
      "REGEDIT4".toList :: ["[HKCU\\A]".toList, "\"h\"=hex:01,\\".toList, ";2".toList,
        "02".toList, "\"u".toList, "\"s\"=\"a\\".toList, "\"d\"=dword:".toList] := by decide +kernel
  have hlines' : fileLines (.singleByte .windows1252) (Utf8.encode paddedText) =
      (" \t".toList ++ "REGEDIT4".toList) :: ["\t[HKCU\\A] ".toList, " \"h\"=hex:01,\\ \t".toList,
        "\t;2 ".toList, " 02 ".toList, "\"u ".toList, " \"s\"=\"a\\ ".toList,
        "\"d\"=dword: ".toList] := by decide +kernel
  have hpadded : ∀ front line back : Text, front.IsBlanks → back.IsBlanks →
      line.Padded (front ++ line ++ back) := fun front line back hfront hback =>
    ⟨front, back, hfront, hback, rfl⟩
  have hnone : Text.IsBlanks [] := nofun
  have htab : Text.IsBlanks ['\t'] := by simp [Text.IsBlanks, isBlank]
  have hspace : Text.IsBlanks [' '] := by simp [Text.IsBlanks, isBlank]
  have hboth : Text.IsBlanks [' ', '\t'] := by simp [Text.IsBlanks, isBlank]
  exact importView_of_padded (Source.delivers_ofBytes _) (Source.delivers_ofBytes _) _ {} hlines
    hlines' (by decide) hboth
    (.cons (hpadded _ _ _ htab hspace) (.cons (hpadded _ _ _ hspace hboth)
      (.cons (hpadded _ _ _ htab hspace) (.cons (hpadded _ _ _ hspace hspace)
        (.cons (hpadded _ _ _ hnone hspace) (.cons (hpadded _ _ _ hspace hspace)
          (.cons (hpadded _ _ _ hnone hspace) .nil)))))))

end RegistryText
