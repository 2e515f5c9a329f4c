import RegistryText.Import.Step
import RegistryText.Proofs.Import.Written

/-!
# Steps on written lines

What each step of an import does on the part of a line that a writer has put
there.  A step is given what stands at its place, and goes on where the next
part stands; it notes no problem.
-/

namespace RegistryText

/-- Data that neither begins nor ends with a blank and asks for no deletion. -/
structure Compact (data : Text) : Prop where
  skipBlanks : data.skipBlanks = data
  trimBlanksRight : data.trimBlanksRight = data
  startsWith : data.startsWith ['-'] = false

theorem compact_of_ends {c : Char} {behind data : Text} (front : Text) (z : Char)
    (hfirst : data = c :: behind) (hlast : data = front ++ [z]) (hc : isBlank c = false)
    (hminus : c ≠ '-') (hz : isBlank z = false) : Compact data where
  skipBlanks := by rw [hfirst, Text.skipBlanks_cons hc]
  trimBlanksRight := by rw [hlast, Text.trimBlanksRight_concat hz]
  startsWith := by simp [hfirst, Text.startsWith, Text.after?, hminus.symm]

/-- The first line of a list of bytes ends with no blank. -/
theorem HexList.Written.last_line {bytes : Bytes} {line : Text} {more : List Text}
    (h : HexList.Written bytes (line :: more)) :
    line = [] ∨ ∃ front z, line = front ++ [z] ∧ isBlank z = false := by
  have hdigits : ∀ {b : UInt8} {digits : Text} (front : Text), HexList.ByteWritten b digits →
      ∃ front' z, front ++ digits = front' ++ [z] ∧ isBlank z = false := by
    intro b digits front hb
    obtain hnil | ⟨init, z, rfl⟩ := List.eq_nil_or_concat digits
    · exact absurd hnil hb.ne_nil
    · exact ⟨front ++ init, z, by simp, isBlank_of_isHexDigit (hb.all z (by simp))⟩
  generalize hlines : line :: more = lines at h
  induction h generalizing line more with
  | empty => exact Or.inl (by simpa using congrArg List.head? hlines)
  | last hb =>
      cases hlines
      exact Or.inr (by simpa using hdigits [] hb)
  | @next b bytes digits line' lines' hb hne tail ih =>
      cases hlines
      rcases ih rfl with hnil | ⟨front, z, rfl, hz⟩
      · obtain ⟨c, rest, rfl, -⟩ := tail.head_line hne
        cases hnil
      · exact Or.inr ⟨digits ++ ',' :: front, z, by simp, hz⟩
  | @broken b bytes digits indent line' lines' hb hne hindent tail ih =>
      cases hlines
      exact Or.inr ⟨digits ++ [','], '\\', by simp, by decide⟩

/-- Written data is compact. -/
theorem PayloadWritten.compact {payload : EntryPayload} {data : Text} {more : List Text}
    (h : PayloadWritten payload data more) : Compact data := by
  cases h with
  | @text t written h =>
      exact compact_of_ends ('"' :: written) '"' rfl rfl (by decide) (by decide) (by decide)
  | @dword value digits h hlength =>
      obtain hnil | ⟨init, z, rfl⟩ := List.eq_nil_or_concat digits
      · simp [hnil] at hlength
      · exact compact_of_ends ("dword:".toList ++ init) z rfl (by simp) (by decide)
          (by decide) (isBlank_of_isHexDigit (h.all z (by simp)))
  | @bytes code bytes digits line more hcode hne h =>
      rcases h.last_line with rfl | ⟨front, z, rfl, hz⟩
      · exact compact_of_ends ("hex(".toList ++ digits ++ [')']) ':' rfl
          (by simp) (by decide) (by decide) (by decide)
      · exact compact_of_ends ("hex(".toList ++ digits ++ "):".toList ++ front) z rfl
          (by simp) (by decide) (by decide) hz

/-- A path with a root begins with a letter. -/
theorem RootKey.head_of_split? {path : Text} {found : RootKey × Text}
    (h : RootKey.split? path = some found) :
    ∃ c rest, path = c :: rest ∧ Text.asciiLower c = 'h' := by
  have hnamed : ∀ root : RootKey, ∀ token : Text, root.isNamed token = true →
      (token.map Text.asciiLower).head? = some 'h' := by
    intro root token hnamed
    simp only [isNamed, Text.sameIgnoringAsciiCase, Bool.or_eq_true, beq_iff_eq] at hnamed
    rcases hnamed with heq | heq <;> rw [heq] <;> cases root <;> decide
  obtain ⟨root, hfind, -⟩ := Option.map_eq_some_iff.mp h
  have hroot := List.find?_some hfind
  have hhead := hnamed root _ hroot
  cases path with
  | nil => simp at hhead
  | cons c rest =>
      refine ⟨c, rest, rfl, ?_⟩
      by_cases hslash : c = '\\'
      · simp [hslash] at hhead
      · simpa [hslash] using hhead

namespace Importer

variable {ρ σ κ : Type} {m : Importer ρ σ κ} {place : Nat} {rest : Text}

/-- The line of a key. -/
theorem dispatch_key (h : m.line = '[' :: rest) : m.dispatch = (.proceed 1, m.enter .keyName) := by
  have hskip : Text.skipBlanks ('[' :: rest) = '[' :: rest := Text.skipBlanks_cons (by decide) rest
  simp only [dispatch, h, hskip, Text.placeOf_self]

/-- The line of a default value. -/
theorem dispatch_default (h : m.line = '@' :: rest) :
    m.dispatch = (.proceed 0, m.enter .defaultName) := by
  have hskip : Text.skipBlanks ('@' :: rest) = '@' :: rest := Text.skipBlanks_cons (by decide) rest
  simp only [dispatch, h, hskip, Text.placeOf_self]

/-- The line of a value with a name. -/
theorem dispatch_quoted (h : m.line = '"' :: rest) :
    m.dispatch = (.proceed 1, m.enter .quotedName) := by
  have hskip : Text.skipBlanks ('"' :: rest) = '"' :: rest := Text.skipBlanks_cons (by decide) rest
  simp only [dispatch, h, hskip, Text.placeOf_self]

variable [LineSupply ρ]

theorem note_nil (m : Importer ρ σ κ) : m.note [] = m := by
  simp [note]

/-- The name of a value is read up to its closing quote. -/
theorem quotedNameStep_written {name written : Text} (hw : Escaped.Written name written)
    (hat : m.line.At place (written ++ '"' :: rest)) :
    m.quotedNameStep place = (.proceed (m.line.placeOf rest),
      { m with valueName := some name, state := .assignment }) := by
  simp [quotedNameStep, hat.fromPlace, Escaped.read?_of_written hw, note]

/-- The equals sign is passed over, and nothing is cut off. -/
theorem assignmentStep_written {data : Text} (hdata : Compact data)
    (hat : m.line.At place ('=' :: data)) :
    m.assignmentStep place = (.proceed (m.line.placeOf data), m.enter .typeTag) := by
  have hbehind : m.line.At (m.line.placeOf data) data := hat.drop ['=']
  have hequals : Text.after? ['='] ('=' :: data) = some data := rfl
  simp only [assignmentStep, hat.fromPlace, Text.skipBlanks_cons (by decide : isBlank '=' = false),
    hequals, hdata.skipBlanks, hdata.trimBlanksRight, hbehind.untilPlace, hbehind.fromPlace,
    hdata.startsWith]
  rfl

/-- A type tag is read. -/
theorem typeTagStep_written {data payload : Text} {tag : TypeTag}
    (htag : TypeTag.read? data = some (tag, payload)) (hat : m.line.At place data) :
    m.typeTagStep place = (.proceed (m.line.placeOf payload),
      { m with dataType := tag.declared, state := payloadState tag.payload }) := by
  simp only [typeTagStep, hat.fromPlace, htag]

/-- A string is read to the end of its line. -/
theorem stringStep_written {t written : Text} (hw : Escaped.Written t written)
    (hat : m.line.At place (written ++ ['"'])) :
    m.stringStep place = (.proceed (m.line.placeOf []), m.stage (stringData t)) := by
  have hend : Text.isEmptyOrComment (Text.skipBlanks []) = true := rfl
  simp only [stringStep, hat.fromPlace, Escaped.read?_of_written hw [], List.map_nil, note_nil,
    hend, if_true]

/-- A doubleword is read. -/
theorem dwordStep_written {value : UInt32} {digits : Text} (hw : HexWritten value.toNat digits)
    (hlength : digits.length = 8) (hat : m.line.At place digits) :
    m.dwordStep place = (.proceed place, m.stage (Dword.bytes value)) := by
  simp only [dwordStep, hat.fromPlace, Dword.read?_of_written hw hlength]

variable [RegistryStore σ κ]

/-- The path of a key is read up to the bracket at the end of the line. -/
theorem keyNameStep_written {path : Text} {found : RootKey × Text}
    (hsplit : RootKey.split? path = some found) (hat : m.line.At place (path ++ [']'])) :
    m.keyNameStep place = (.proceed place, (m.openKey path).2.enter .lineStart) := by
  obtain ⟨c, rest, rfl, hc⟩ := RootKey.head_of_split? hsplit
  have hblank : isBlank c = false := by
    rw [Bool.eq_false_iff]
    intro h
    simp only [isBlank, Bool.or_eq_true, decide_eq_true_eq] at h
    rcases h with rfl | rfl <;> exact absurd hc (by decide)
  have hminus : c ≠ '-' := by
    rintro rfl
    exact absurd hc (by decide)
  have hname : bracketed? (c :: rest ++ [']']) = some (c :: rest) := by
    have hhead : (c :: rest ++ [']']).head? = some c := rfl
    simp only [bracketed?, hhead, Option.map_some, hblank, Option.getD_some,
      Text.beforeLast?_concat]
    rfl
  have hkeep : Text.after? ['-'] (c :: rest) = none := by
    simp [Text.after?, hminus.symm]
  simp only [keyNameStep, hat.fromPlace, hname, hkeep]

end Importer

end RegistryText
