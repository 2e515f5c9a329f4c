import Mathlib.Tactic.SplitIfs
import RegistryText.Proofs.Import.Statement
import RegistryText.Proofs.Payload.Comments

/-!
# Lines with comments

A comment on a line of its own states nothing (`Reading.ofBody_of_isComment`).  **A line of a
structured file that is not blank states the same with a comment behind it, unless it states
a problem** (`Reading.ofLine_append`).

The proof goes through the line as its reading does: the comment stands behind what is
left of the line, and in the end behind a payload, which lets it follow.
-/

namespace RegistryText

namespace Reading

/-- The reading states no problem. -/
def Sound (r : Reading) : Prop :=
  ∀ kind, r.statement ≠ .fault kind

/-- What a line that is not blank states, by its first character. -/
theorem ofLine_of_cons {line rest : Text} {c : Char} (h : line.skipBlanks = c :: rest) :
    ofLine line =
      if c = '[' then ofBracket rest
      else if c = '@' then ofAssignment none rest
      else if c = '"' then ofQuoted rest
      else { statement := .nothing } := by
  rw [ofLine, h]
  split <;> simp_all

/-- A comment on a line of its own states nothing. -/
theorem ofBody_of_isComment (state : ImportState) {line : Text} (h : line.IsComment) :
    ofBody state line = { statement := .nothing } := by
  have hline : ofLine line = { statement := .nothing } := by
    obtain ⟨text, hskip⟩ := h.skipBlanks
    rw [ofLine_of_cons hskip]
    rfl
  have hwindows : ofWindows31 line = { statement := .nothing } := by
    have hroot : line.startsWith Importer.classesRootToken = false := by
      obtain ⟨blanks, text, hblanks, rfl⟩ := h
      have htoken : Importer.classesRootToken = 'H' :: "KEY_CLASSES_ROOT".toList := rfl
      cases blanks with
      | nil => rfl
      | cons c blanks =>
          have hne : 'H' ≠ c := by
            rintro rfl
            exact absurd (hblanks 'H' List.mem_cons_self) (by decide)
          simp [Text.startsWith, htoken, Text.after?, hne]
    rw [ofWindows31, hroot]
    rfl
  unfold ofBody
  split
  · exact hwindows
  · exact hline

variable {comment : Text} (hcomment : comment.IsComment) {name : Option Text}
include hcomment

theorem ofString_append {type : ValueType} {payload : Text}
    (hsound : (ofString name type payload).Sound) :
    ofString name type (payload ++ comment) = ofString name type payload := by
  cases hread : Escaped.read? payload with
  | none => exact absurd (by rw [ofString, hread]) (hsound .invalidStringData)
  | some s =>
      have hend : s.rest.skipBlanks.isEmptyOrComment = true := by
        refine Classical.byContradiction fun hend => hsound .invalidStringData ?_
        rw [ofString, hread]
        exact if_neg hend
      have hend' : Text.isEmptyOrComment (Text.skipBlanks (s.rest ++ comment)) = true :=
        Text.isTrailer_iff.mp ((Text.isTrailer_iff.mpr hend).append hcomment)
      simp only [ofString, Escaped.read?_append hread, hread, hend, hend']

theorem ofDword_append {type : ValueType} {payload : Text}
    (hsound : (ofDword name type payload).Sound) :
    ofDword name type (payload ++ comment) = ofDword name type payload := by
  cases hread : Dword.read? payload with
  | none => exact absurd (by rw [ofDword, hread]) (hsound .invalidDwordData)
  | some value => rw [ofDword, Dword.read?_append hcomment hread, ofDword, hread]

theorem ofList_append {type : ValueType} {payload : Text}
    (hsound : (ofList name type payload).Sound) :
    ofList name type (payload ++ comment) = ofList name type payload := by
  rcases hread : HexList.readLine payload with ⟨_ | ending, bytes⟩
  · exact absurd (by rw [ofList, hread]) (hsound .invalidHexData)
  · rw [ofList, HexList.readLine_comment hcomment hread, ofList, hread]

/-- The data of a value keeps its meaning: its tag is not touched, and a comment may follow
each of the payloads. -/
theorem ofData_append {data : Text} (hsound : (ofData name data).Sound) :
    ofData name (data ++ comment) = ofData name data := by
  cases hminus : data.startsWith ['-'] with
  | true => exact absurd (by rw [ofData, hminus]; rfl) (hsound .valueDeletionUnsupported)
  | false =>
      cases hread : TypeTag.read? data with
      | none =>
          exact absurd (by simp only [ofData, hminus, hread]; rfl) (hsound .unknownDataType)
      | some read =>
          obtain ⟨tag, payload⟩ := read
          have hpayload : ofData name data = ofPayload name tag payload := by
            simp only [ofData, hminus, hread, Bool.false_eq_true, if_false]
          have hminus' : Text.startsWith (data ++ comment) ['-'] = false := by
            cases data with
            | nil => cases hread
            | cons c rest => simpa [Text.startsWith, Text.after?] using hminus
          have hpayload' :
              ofData name (data ++ comment) = ofPayload name tag (payload ++ comment) := by
            simp only [ofData, hminus', TypeTag.read?_append hread, Bool.false_eq_true, if_false]
          rw [hpayload] at hsound ⊢
          rw [hpayload']
          unfold ofPayload at hsound ⊢
          cases hform : tag.payload <;> rw [hform] at hsound
          · exact ofString_append hcomment hsound
          · exact ofDword_append hcomment hsound
          · exact ofList_append hcomment hsound

theorem ofAssignment_append {rest : Text} (hsound : (ofAssignment name rest).Sound) :
    ofAssignment name (rest ++ comment) = ofAssignment name rest := by
  cases hequals : Text.after? ['='] rest.skipBlanks with
  | none => exact absurd (by rw [ofAssignment, hequals]) (hsound .missingAssignment)
  | some data =>
      have hdata : ofAssignment name rest = ofData name data.skipBlanks.trimBlanksRight := by
        rw [ofAssignment, hequals]
      rw [hdata] at hsound ⊢
      have hskip : rest.skipBlanks = '=' :: data := Text.after?_eq_some_iff.mp hequals
      have hequals' : Text.after? ['='] (Text.skipBlanks (rest ++ comment)) =
          some (data ++ comment) := by
        rw [Text.skipBlanks_append_of_cons hskip]
        rfl
      rw [ofAssignment, hequals']
      -- data of blanks only would have been no data, so the comment stands behind something
      cases hblank : data.skipBlanks with
      | nil =>
          rw [hblank] at hsound
          exact absurd rfl (hsound .unknownDataType)
      | cons c behind =>
          obtain ⟨comment', hcomment', htrim⟩ :=
            Text.trimBlanksRight_append hcomment data.skipBlanks
          have hskip' : Text.skipBlanks (data ++ comment) = data.skipBlanks ++ comment := by
            rw [Text.skipBlanks_append_of_cons hblank, hblank, List.cons_append]
          show ofData name (Text.trimBlanksRight (Text.skipBlanks (data ++ comment))) = _
          rw [hskip', htrim, ← hblank]
          exact ofData_append hcomment' hsound

theorem ofQuoted_append {rest : Text} (hsound : (ofQuoted rest).Sound) :
    ofQuoted (rest ++ comment) = ofQuoted rest := by
  cases hread : Escaped.read? rest with
  | none => exact absurd (by rw [ofQuoted, hread]) (hsound .invalidValueName)
  | some name =>
      have hquoted : ofQuoted rest =
          (ofAssignment (some name.text) name.rest).behind name.unknown := by
        rw [ofQuoted, hread]
      rw [hquoted] at hsound ⊢
      rw [ofQuoted, Escaped.read?_append hread]
      exact congrArg (behind name.unknown) (ofAssignment_append hcomment hsound)

omit hcomment in
/-- A key keeps its name if nothing behind it closes a bracket. -/
theorem ofBracket_append {rest : Text} (hbracket : ']' ∉ comment)
    (hsound : (ofBracket rest).Sound) : ofBracket (rest ++ comment) = ofBracket rest := by
  cases hname : Importer.bracketed? rest with
  | none => exact absurd (by rw [ofBracket, hname]) (hsound .malformedKey)
  | some key =>
      have hname' : Importer.bracketed? (rest ++ comment) = some key := by
        cases rest with
        | nil => cases hname
        | cons c behind =>
            unfold Importer.bracketed? at hname ⊢
            split at hname
            · cases hname
            next hblank =>
              exact (if_neg hblank).trans
                ((Text.beforeLast?_append hbracket (c :: behind)).trans hname)
      rw [ofBracket, hname', ofBracket, hname]

/-- **A line keeps its meaning with a comment behind it**, if it is not blank and states no
problem. -/
theorem ofLine_append {line : Text} (hline : line.skipBlanks ≠ [])
    (hkey : line.skipBlanks.head? = some '[' → ']' ∉ comment) (hsound : (ofLine line).Sound) :
    ofLine (line ++ comment) = ofLine line := by
  obtain ⟨c, rest, hskip⟩ := List.exists_cons_of_ne_nil hline
  have hskip' := Text.skipBlanks_append_of_cons hskip comment
  rw [ofLine_of_cons hskip] at hsound ⊢
  rw [ofLine_of_cons hskip']
  rw [hskip] at hkey
  split_ifs at hsound ⊢ with hbracket hsign hquote
  · exact ofBracket_append (hkey (congrArg some hbracket)) hsound
  · exact ofAssignment_append hcomment hsound
  · exact ofQuoted_append hcomment hsound
  · rfl

end Reading

end RegistryText
