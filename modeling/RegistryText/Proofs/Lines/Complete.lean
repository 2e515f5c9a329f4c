import RegistryText.Proofs.Lines.File
import RegistryText.Proofs.Lines.Reading

/-!
# Complete lines

While an input is still being read its last line is not known yet: what stands behind
the last end may go on, and a carriage return in the last unit may be followed by its
line feed.  A line is *complete* if it is ended by a line feed, or by a carriage return
with something behind it.

**Whatever follows, the complete lines stay as they are** (`prefix_completeLines`,
`prefix_completeFileLines`).  They are the lines that a line feed at the end would
leave, but for the last one (`completeLines_eq`).
-/

namespace RegistryText

section Complete

variable {α : Type} [DecidableEq α]

/-- The lines of a sequence that stay as they are, whatever follows. -/
def completeLines (cr lf : α) : List α → List (List α)
  | [] => []
  | [a] => if a = lf then [[]] else []
  | a :: b :: rest =>
      if a = lf then [] :: completeLines cr lf (b :: rest)
      else if a = cr then
        [] :: if b = lf then completeLines cr lf rest else completeLines cr lf (b :: rest)
      else (completeLines cr lf (b :: rest)).modifyHead (a :: ·)

variable {cr lf : α}

theorem linesOf_ne_nil {units : List α} (h : units ≠ []) : linesOf cr lf units ≠ [] := by
  have hjoin : ∀ (a : α) (lines : List (List α)), joinFirstLine a lines ≠ [] := by
    intro a lines
    cases lines <;> simp [joinFirstLine]
  rcases units with _ | ⟨a, _ | ⟨b, rest⟩⟩
  · exact absurd rfl h
  · unfold linesOf
    split <;> simp
  · unfold linesOf
    split
    · simp
    split
    · simp
    · exact hjoin a _

omit [DecidableEq α] in
/-- Letters in front of the first line belong to it, also if there is no other line yet. -/
theorem dropLast_joinFirstLine (a : α) (lines : List (List α)) :
    (joinFirstLine a lines).dropLast = lines.dropLast.modifyHead (a :: ·) := by
  match lines with
  | [] => rfl
  | [_] => rfl
  | _ :: _ :: _ => rfl

/-- **The complete lines are those that a line feed at the end would leave**, but for the
last of them. -/
theorem completeLines_eq (units : List α) :
    completeLines cr lf units = (linesOf cr lf (units ++ [lf])).dropLast := by
  have hnonempty : ∀ units : List α, linesOf cr lf (units ++ [lf]) ≠ [] := fun units =>
    linesOf_ne_nil (by simp)
  fun_induction completeLines cr lf units with
  | case1 => simp [linesOf]
  | case2 => simp [linesOf]
  | case3 a hlf =>
      by_cases hcr : a = cr
      · subst hcr
        simp [linesOf, hlf]
      · simp [linesOf, hlf, hcr, joinFirstLine]
  | case4 b rest ih =>
      rw [List.cons_append, linesOf_lf, List.dropLast_cons_of_ne_nil (hnonempty _), ih]
  | case5 b rest hlf ih ih' =>
      rw [List.cons_append, linesOf_cr hlf, List.cons_append, dropLineFeed]
      split
      · rw [List.dropLast_cons_of_ne_nil (hnonempty _), ih]
      · rw [List.dropLast_cons_of_ne_nil (linesOf_ne_nil (by simp)), ih', List.cons_append]
  | case6 a b rest hlf hcr ih =>
      rw [List.cons_append, linesOf_cons ⟨hcr, hlf⟩, dropLast_joinFirstLine, ih]

/-- **Complete lines stay as they are.** -/
theorem prefix_completeLines (units more : List α) :
    completeLines cr lf units <+: linesOf cr lf (units ++ more) := by
  fun_induction completeLines cr lf units with
  | case1 => exact List.nil_prefix
  | case2 => simp [linesOf_lf]
  | case3 a hlf => exact List.nil_prefix
  | case4 b rest ih =>
      rw [List.cons_append, linesOf_lf]
      exact (List.prefix_cons_inj []).mpr ih
  | case5 b rest hlf ih ih' =>
      rw [List.cons_append, linesOf_cr hlf, List.cons_append, dropLineFeed]
      split
      · exact (List.prefix_cons_inj []).mpr ih
      · exact (List.prefix_cons_inj []).mpr ih'
  | case6 a b rest hlf hcr ih =>
      rw [List.cons_append, linesOf_cons ⟨hcr, hlf⟩]
      obtain ⟨lines, hlines⟩ := ih
      rw [← hlines]
      cases completeLines cr lf (b :: rest) with
      | nil => exact List.nil_prefix
      | cons line more => exact ⟨lines, rfl⟩

/-- Letters that end no line are complete with the first line behind them. -/
theorem completeLines_append_of_nil {front units : List α} (hfront : EndFree cr lf front)
    (h : completeLines cr lf units = []) : completeLines cr lf (front ++ units) = [] := by
  induction front with
  | nil => exact h
  | cons a front ih =>
      obtain ⟨⟨hcr, hlf⟩, hfront⟩ := endFree_cons.mp hfront
      have hrest := ih hfront
      rw [List.cons_append]
      cases hunits : front ++ units with
      | nil => simp [completeLines, hlf]
      | cons b rest =>
          rw [hunits] at hrest
          simp [completeLines, hlf, hcr, hrest]

end Complete

/-- The complete lines of a file, cut between code units and decoded one by one.  The first
byte of a unit that is cut in two does not count. -/
def completeFileLines (page : CodePage) (bytes : Bytes) : List Text :=
  (completeLines carriageReturn lineFeed
    ((fileEncoding bytes).wholeUnits (textBytes bytes)).1).map
      ((fileEncoding bytes).decodeUnits page)

/-- Two bytes tell the encoding. -/
theorem fileEncoding_append {bytes : Bytes} (h : 2 ≤ bytes.length) (more : Bytes) :
    fileEncoding (bytes ++ more) = fileEncoding bytes := by
  match bytes with
  | [] => simp at h
  | [_] => simp at h
  | _ :: _ :: _ => rfl

theorem textBytes_append {bytes : Bytes} (h : 2 ≤ bytes.length) (more : Bytes) :
    textBytes (bytes ++ more) = textBytes bytes ++ more := by
  simp only [textBytes, fileEncoding_append h]
  cases fileEncoding bytes with
  | narrow => rfl
  | wide => exact List.drop_append_of_le_length h

/-- **The complete lines of a file are the first ones of every file that it begins.** -/
theorem prefix_completeFileLines (page : CodePage) {bytes : Bytes} (h : 2 ≤ bytes.length)
    (more : Bytes) : completeFileLines page bytes <+: fileLines page (bytes ++ more) := by
  rw [completeFileLines, fileLines, fileEncoding_append h, textBytes_append h,
    FileEncoding.wholeUnits_append]
  exact (prefix_completeLines _ _).map _

end RegistryText
