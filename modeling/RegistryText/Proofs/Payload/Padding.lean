import RegistryText.Proofs.Payload.Comments

/-!
# Blanks behind a payload

Blanks behind a text change neither what is found in front of them nor that nothing is found:
**a reader that lets blanks follow answers the same with more of them, whether it accepts or
not** (`Escaped.read?_blanks`, `HexList.readLine_blanks`).  A doubleword and a string need no
lemma of their own, since the blanks behind the data of a value are cut off before it is read.
-/

namespace RegistryText

variable {back : Text} (hback : back.IsBlanks)
include hback

namespace Text

/-- Blanks hold nothing but blanks. -/
theorem IsBlanks.not_mem {c : Char} (hc : isBlank c = false) : c ∉ back := by
  intro hmem
  have hblank := hback c hmem
  rw [hc] at hblank
  cases hblank

/-- What is left of a text without the blanks in front of it, if more follow. -/
theorem skipBlanks_blanks (t : Text) :
    (t ++ back).skipBlanks = if t.skipBlanks = [] then [] else t.skipBlanks ++ back := by
  cases hskip : t.skipBlanks with
  | nil =>
      obtain ⟨blanks, hblanks, ht⟩ := exists_eq_skipBlanks t
      have hnone : back.skipBlanks = [] := by
        rw [← List.append_nil back, skipBlanks_append hback]
        rfl
      rw [ht, hskip, List.append_nil, skipBlanks_append hblanks, hnone, if_pos rfl]
  | cons c rest =>
      rw [skipBlanks_append_of_cons hskip, if_neg (List.cons_ne_nil c rest), List.cons_append]

/-- Blanks at the end of a text are trimmed with the others. -/
theorem trimBlanksRight_blanks (t : Text) : (t ++ back).trimBlanksRight = t.trimBlanksRight := by
  have hreverse : ∀ c ∈ back.reverse, isBlank c = true := fun c hc =>
    hback c (List.mem_reverse.mp hc)
  rw [trimBlanksRight, List.reverse_append, List.dropWhile_append_of_pos hreverse,
    trimBlanksRight]

/-- A text that is empty or a comment stays so with blanks behind it, and no other becomes so. -/
theorem isEmptyOrComment_blanks (t : Text) :
    (t ++ back).skipBlanks.isEmptyOrComment = t.skipBlanks.isEmptyOrComment := by
  rw [skipBlanks_blanks hback]
  cases t.skipBlanks <;> rfl

/-- A text begins with the same character, if that is no blank. -/
theorem startsWith_blanks (c : Char) (t : Text) :
    (t ++ back).skipBlanks.startsWith [c] = t.skipBlanks.startsWith [c] := by
  rw [skipBlanks_blanks hback]
  cases t.skipBlanks with
  | nil => rfl
  | cons d rest => by_cases hcd : c = d <;> simp [startsWith, after?, hcd]

end Text

/-! ### Payloads -/

/-- The quote that closes an escaped text is not found among the blanks. -/
theorem Escaped.read?_blanks (t : Text) :
    read? (t ++ back) = (read? t).map fun u => { u with rest := u.rest ++ back } := by
  cases hread : read? t with
  | some u => exact read?_append hread back
  | none =>
      refine Option.eq_none_iff_forall_ne_some.mpr fun u hsome => ?_
      obtain ⟨written, heq, hmeans⟩ := read?_eq_some_iff.mp hsome
      rcases List.append_eq_append_iff.mp heq with ⟨more, -, hmore⟩ | ⟨more, ht, hmore⟩
      · have hquote : '"' ∈ back := by simp [hmore]
        exact hback.not_mem (by decide) hquote
      · cases more with
        | nil =>
            have hquote : '"' ∈ back := by
              rw [List.nil_append] at hmore
              simp [← hmore]
            exact hback.not_mem (by decide) hquote
        | cons c rest =>
            obtain ⟨rfl, -⟩ := List.cons.inj hmore
            rw [ht, hmeans.read? rest] at hread
            cases hread

namespace HexList

/-- A byte is read in front of them. -/
theorem readByte?_blanks (c : Char) (rest : Text) :
    readByte? c (rest ++ back) =
      (readByte? c rest).map fun read => (read.1, read.2 ++ back) := by
  cases hhigh : hexValue? c with
  | none => simp [readByte?, hhigh]
  | some high =>
      cases rest with
      | cons d rest => cases hlow : hexValue? d <;> simp [readByte?, hhigh, hlow]
      | nil =>
          cases back with
          | nil => simp [readByte?, hhigh]
          | cons d back =>
              have hlow : hexValue? d = none := by
                refine Option.eq_none_iff_forall_ne_some.mpr fun low hlow => ?_
                have hdigit := isBlank_of_isHexDigit (c := d) (by simp [isHexDigit, hlow])
                rw [hback d List.mem_cons_self] at hdigit
                cases hdigit
              simp [readByte?, hhigh, hlow]

/-- The blanks go to the rest of the line, if there is one. -/
def Item.before (back : Text) : Item → Item
  | .byte b rest => .byte b (rest ++ back)
  | .stop ending last => .stop ending last
  | .fault last => .fault last

/-- An item of a list is read in front of them. -/
theorem item_blanks (line : Text) : item (line ++ back) = (item line).before back := by
  simp only [item, Text.skipBlanks_blanks hback]
  cases line.skipBlanks with
  | nil => rfl
  | cons c rest =>
      simp only [List.cons_ne_nil, if_false, List.cons_append]
      by_cases hcomment : c = ';'
      · simp only [hcomment, if_true, Item.before]
      simp only [hcomment, if_false]
      by_cases hslash : c = '\\'
      · simp only [hslash, if_true, Text.isEmptyOrComment_blanks hback]
        by_cases hend : (Text.skipBlanks rest).isEmptyOrComment = true <;>
          simp [hend, Item.before]
      simp only [hslash, if_false, readByte?_blanks hback]
      rcases readByte? c rest with _ | ⟨b, behind⟩
      · rfl
      simp only [Option.map_some, Text.skipBlanks_blanks hback]
      cases behind.skipBlanks with
      | nil => rfl
      | cons d more =>
          simp only [List.cons_ne_nil, if_false, List.cons_append]
          by_cases hlast : d = ';'
          · simp only [hlast, if_true, Item.before]
          by_cases hcomma : d = ',' <;> simp [hlast, hcomma, Item.before]

/-- A line of a list of bytes is read the same with blanks behind it, down to the bytes in front
of a fault. -/
theorem readLine_blanks (line : Text) : readLine (line ++ back) = readLine line := by
  fun_induction readLine line with
  | case1 line ending last hitem =>
      exact readLine_of_stop (by rw [item_blanks hback, hitem, Item.before])
  | case2 line last hitem =>
      exact readLine_of_fault (by rw [item_blanks hback, hitem, Item.before])
  | case3 line b rest hitem hless r ih =>
      have hitem' : item (line ++ back) = .byte b (rest ++ back) := by
        rw [item_blanks hback, hitem, Item.before]
      rw [readLine_of_byte hitem', ih]

end HexList

end RegistryText
