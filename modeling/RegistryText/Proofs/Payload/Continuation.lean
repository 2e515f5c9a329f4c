import RegistryText.Proofs.Payload.Grammar

/-!
# Lists of bytes over several lines

A list of bytes is decoded line by line, each line behind the bytes that have been
decoded before.  `decodeOnto` is one such step.

**It accepts exactly the lines of the grammar** and puts the bytes of their digits behind
those that are there.  A line that is continued and the line behind it mean the same as
one line that is the first one up to its backslash and then the second: a continued line
stops in front of a byte, never within one, so no digits fuse across the break and none
are torn apart.  The written form of a list of bytes is such a line, and gives it back.
-/

namespace RegistryText.HexList

/-- Decode a line of a list of bytes of which `out` has been decoded. -/
def decodeOnto (out : Bytes) (line : Text) : Option Ending × Bytes :=
  ((readLine line).1, out ++ (readLine line).2)

/-- A line is accepted if it is spelled by the grammar, and its bytes are put behind those
that have been decoded before. -/
theorem decodeOnto_eq_some_iff {out total : Bytes} {line : Text} {ending : Ending} :
    decodeOnto out line = (some ending, total) ↔
      ∃ bytes, Spelled line ending bytes ∧ total = out ++ bytes := by
  constructor
  · intro h
    obtain ⟨hending, htotal⟩ := Prod.mk.inj h
    exact ⟨_, readLine_eq_some_iff.mp (Prod.ext hending rfl), htotal.symm⟩
  · rintro ⟨bytes, hspelled, rfl⟩
    rw [decodeOnto, hspelled.readLine]

/-! ### Continued lines -/

/-- The part of a line in front of its first backslash. -/
def front (line : Text) : Text :=
  line.takeWhile (· ≠ '\\')

theorem front_append {t : Text} (h : '\\' ∉ t) (line : Text) :
    front (t ++ line) = t ++ front line := by
  refine List.takeWhile_append_of_pos fun c hc => ?_
  simpa using fun hslash : c = '\\' => h (hslash ▸ hc)

theorem slash_not_mem_blanks {blanks : Text} (h : blanks.IsBlanks) : '\\' ∉ blanks :=
  fun hmem => absurd (h _ hmem) (by decide)

theorem ByteWritten.slash_not_mem {b : UInt8} {digits : Text} (h : ByteWritten b digits) :
    '\\' ∉ digits :=
  fun hmem => (ne_of_isHexDigit (h.all _ hmem)).2.1 rfl

/-- **A continued line means its front**: whatever text is put behind the front is read behind
the bytes of the line. -/
theorem readLine_front {line : Text} {bytes : Bytes} (h : Spelled line .continued bytes)
    (t : Text) : readLine (front line ++ t) = ((readLine t).1, bytes ++ (readLine t).2) := by
  generalize hending : Ending.continued = ending at h
  induction h with
  | stop | last => cases hending
  | @continued blanks behind hblanks hbehind =>
      have hslash : front ('\\' :: behind) = [] := List.takeWhile_cons_of_neg (by simp)
      rw [front_append (slash_not_mem_blanks hblanks), hslash, List.append_nil,
        readLine_append hblanks, List.nil_append]
  | @next b bytes ending indent digits blanks rest hindent hb hblanks tail ih =>
      have htoken : '\\' ∉ indent ++ digits ++ blanks ++ [','] := by
        simp [slash_not_mem_blanks hindent, hb.slash_not_mem, slash_not_mem_blanks hblanks]
      have hfront : front (indent ++ digits ++ blanks ++ ',' :: rest) ++ t =
          indent ++ digits ++ blanks ++ ',' :: (front rest ++ t) := by
        rw [List.append_cons, front_append htoken]
        simp
      rw [hfront, readLine_of_byte (item_comma hindent hb hblanks _), ih hending]
      rfl

/-! ### The written form -/

/-- What takes only one line to write is a line that ends a list. -/
theorem Written.spelled {bytes : Bytes} {line : Text} (h : Written bytes [line]) :
    Spelled line .complete bytes := by
  have hblanks : Text.IsBlanks [] := List.forall_mem_nil _
  have htrailer : Text.IsTrailer [] := ⟨[], [], hblanks, rfl, Or.inl rfl⟩
  generalize hlines : [line] = lines at h
  induction h generalizing line with
  | empty =>
      obtain rfl := List.singleton_inj.mp hlines
      exact .stop htrailer
  | last hb =>
      obtain rfl := List.singleton_inj.mp hlines
      simpa using Spelled.last hblanks hb htrailer
  | next hb hne tail ih =>
      obtain ⟨rfl, rfl⟩ := List.cons.inj hlines
      simpa using Spelled.next hblanks hb hblanks (ih rfl)
  | broken => cases hlines

/-- **A line is decoded exactly when it is spelled by the grammar; a continued line and the
next one are decoded like the front of the first with the second behind it; and the written
form of every list of bytes is decoded to it.** -/
theorem decodeOnto_lines (out : Bytes) :
    (∀ line ending total, decodeOnto out line = (some ending, total) ↔
      ∃ bytes, Spelled line ending bytes ∧ total = out ++ bytes) ∧
    (∀ line t, (decodeOnto out line).1 = some .continued →
      decodeOnto (decodeOnto out line).2 t = decodeOnto out (front line ++ t)) ∧
    ∀ bytes, decodeOnto out (write bytes) = (some .complete, out ++ bytes) := by
  refine ⟨fun line ending total => decodeOnto_eq_some_iff, ?_, ?_⟩
  · intro line t hcontinued
    have hspelled : Spelled line .continued (readLine line).2 :=
      readLine_eq_some_iff.mp (Prod.ext hcontinued rfl)
    rw [decodeOnto, decodeOnto, decodeOnto, readLine_front hspelled, List.append_assoc]
  · intro bytes
    exact decodeOnto_eq_some_iff.mpr ⟨bytes, (written_write bytes).spelled, rfl⟩

/-- A line that is continued in front of a comment with a backslash of its own, and the line
behind it. -/
theorem decodeOnto_lines_commented :
    decodeOnto [7] "1, 0A ,\\ ; not \\ here".toList = (some .continued, [7, 0x01, 0x0A]) ∧
    front "1, 0A ,\\ ; not \\ here".toList = "1, 0A ,".toList ∧
    decodeOnto [7, 0x01, 0x0A] " ff".toList = decodeOnto [7] "1, 0A , ff".toList := by
  have hline : decodeOnto [7] "1, 0A ,\\ ; not \\ here".toList =
      (some .continued, [7, 0x01, 0x0A]) := by
    decide +kernel
  have hnext := (decodeOnto_lines [7]).2.1 "1, 0A ,\\ ; not \\ here".toList " ff".toList
    (by rw [hline])
  rw [hline] at hnext
  exact ⟨hline, rfl, hnext⟩

end RegistryText.HexList
