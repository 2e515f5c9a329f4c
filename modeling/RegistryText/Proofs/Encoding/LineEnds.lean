import RegistryText.Encoding.Decoder
import RegistryText.Proofs.Lines.Split

/-!
# Decoding line by line

Lines are cut between undecoded units and then decoded one by one.  That this
gives the lines of the decoded text is no matter of course: an unfinished
character in front of a line end is then closed by the end of its line, and not
by the line end itself, and it must neither swallow it nor yield one.

A decoder *keeps line ends* when the units of a carriage return and of a line
feed close whatever is unfinished and become that character, when no other unit
yields one, and when every unit leaves a trace in the text.  **For such a
decoder, cutting lines and decoding commute** (`KeepsLineEnds.map_decode_linesOf`).
-/

namespace RegistryText

/-! ### Characters of code points -/

/-- A number that is a code point is that of its character. -/
theorem toNat_charOfNat {n : Nat} (h : n.isValidChar) : (Char.ofNat n).toNat = n := by
  rw [Char.ofNat, dif_pos h]
  rfl

/-- Only the code points of line ends give line ends; what is no code point
gives the null character. -/
theorem endFree_charOfNat {n : Nat} (hcr : n ≠ 0x0D) (hlf : n ≠ 0x0A) :
    EndFree '\r' '\n' [Char.ofNat n] := by
  have hne : ∀ c : Char, n ≠ c.toNat → '\x00' ≠ c → Char.ofNat n ≠ c := by
    intro c hc hnull heq
    by_cases hvalid : n.isValidChar
    · exact hc (by rw [← heq, toNat_charOfNat hvalid])
    · rw [Char.ofNat, dif_neg hvalid] at heq
      exact hnull heq
  exact endFree_cons.mpr
    ⟨⟨hne '\r' hcr (by decide), hne '\n' hlf (by decide)⟩, endFree_nil⟩

theorem endFree_replacementChar : EndFree '\r' '\n' [replacementChar] := by
  simp [replacementChar]

namespace Decoder

variable {α σ : Type}

/-- A decoder for which `cr` and `lf` stand for the ends of lines and nothing
else does.  `Sound` holds of the states that it reaches. -/
structure KeepsLineEnds (d : Decoder α σ) (cr lf : α) (Sound : σ → Prop) : Prop where
  ne : cr ≠ lf
  sound_start : Sound d.start
  sound_step : ∀ {s}, Sound s → ∀ a, Sound (d.step s a).2
  close_start : d.close d.start = []
  step_cr : ∀ {s}, Sound s → d.step s cr = (d.close s ++ ['\r'], d.start)
  step_lf : ∀ {s}, Sound s → d.step s lf = (d.close s ++ ['\n'], d.start)
  endFree_step : ∀ {s a}, Sound s → a ≠ cr ∧ a ≠ lf → EndFree '\r' '\n' (d.step s a).1
  endFree_close : ∀ {s}, Sound s → EndFree '\r' '\n' (d.close s)
  emits : ∀ {s}, Sound s → ∀ a, (d.step s a).1 ≠ [] ∨ d.close (d.step s a).2 ≠ []

namespace KeepsLineEnds

variable {d : Decoder α σ} {cr lf : α} {Sound : σ → Prop}

theorem decode_nil (h : d.KeepsLineEnds cr lf Sound) : d.decode [] = [] := by
  rw [decode, run_nil, h.close_start]

/-- Units that end no line yield no line end. -/
theorem endFree_run (h : d.KeepsLineEnds cr lf Sound) {s : σ} (hs : Sound s) {units : List α}
    (hunits : EndFree cr lf units) : EndFree '\r' '\n' (d.run s units) := by
  induction units generalizing s with
  | nil => rw [run_nil]; exact h.endFree_close hs
  | cons a units ih =>
      obtain ⟨ha, hunits⟩ := endFree_cons.mp hunits
      rw [run_cons]
      exact endFree_append.mpr ⟨h.endFree_step hs ha, ih (h.sound_step hs a) hunits⟩

/-- What has units has characters. -/
theorem run_ne_nil (h : d.KeepsLineEnds cr lf Sound) {s : σ} (hs : Sound s) {units : List α}
    (hunits : units ≠ []) : d.run s units ≠ [] := by
  induction units generalizing s with
  | nil => exact absurd rfl hunits
  | cons a units ih =>
      rw [run_cons]
      intro hempty
      obtain ⟨hstep, hrest⟩ := List.append_eq_nil_iff.mp hempty
      cases units with
      | nil =>
          rw [run_nil] at hrest
          rcases h.emits hs a with hemits | hemits
          · exact hemits hstep
          · exact hemits hrest
      | cons b units => exact ih (h.sound_step hs a) (by simp) hrest

/-- A line in front of a line feed is decoded on its own. -/
theorem run_append_lf (h : d.KeepsLineEnds cr lf Sound) {s : σ} (hs : Sound s)
    (line rest : List α) :
    d.run s (line ++ lf :: rest) = d.run s line ++ '\n' :: d.decode rest := by
  induction line generalizing s with
  | nil => simp [run_cons, h.step_lf hs, decode]
  | cons a line ih => simp [run_cons, ih (h.sound_step hs a)]

/-- A line in front of a carriage return is decoded on its own. -/
theorem run_append_cr (h : d.KeepsLineEnds cr lf Sound) {s : σ} (hs : Sound s)
    (line rest : List α) :
    d.run s (line ++ cr :: rest) = d.run s line ++ '\r' :: d.decode rest := by
  induction line generalizing s with
  | nil => simp [run_cons, h.step_cr hs, decode]
  | cons a line ih => simp [run_cons, ih (h.sound_step hs a)]

/-- The text begins with a line feed just when the units do. -/
theorem decode_dropLineFeed [DecidableEq α] (h : d.KeepsLineEnds cr lf Sound) (units : List α) :
    d.decode (dropLineFeed lf units) = dropLineFeed '\n' (d.decode units) := by
  have hs := h.sound_start
  -- Text without a line feed in front stays as it is.
  have hkept : ∀ {line : Text} (rest : Text), EndFree '\r' '\n' line → line ≠ [] →
      dropLineFeed '\n' (line ++ rest) = line ++ rest := by
    intro line rest hline hne
    cases line with
    | nil => exact absurd rfl hne
    | cons c line => simp [dropLineFeed, (endFree_cons.mp hline).1.2]
  rcases first_end cr lf units with hfree | ⟨line, rest, rfl, hline⟩ | ⟨line, rest, rfl, hline⟩
  · cases units with
    | nil => rw [dropLineFeed, h.decode_nil, dropLineFeed]
    | cons a units =>
        have htext := hkept [] (h.endFree_run hs hfree) (h.run_ne_nil hs (by simp))
        rw [List.append_nil] at htext
        rw [decode, decode, htext, dropLineFeed, if_neg (endFree_cons.mp hfree).1.2]
  · cases line with
    | nil =>
        have hdecode := h.run_append_lf hs [] rest
        rw [run_nil, h.close_start] at hdecode
        rw [decode, decode, hdecode]
        simp [dropLineFeed, decode]
    | cons a line =>
        have htext := hkept ('\n' :: d.decode rest) (h.endFree_run hs hline)
          (h.run_ne_nil hs (by simp))
        rw [decode, decode, h.run_append_lf hs, htext, List.cons_append, dropLineFeed,
          if_neg (endFree_cons.mp hline).1.2, ← List.cons_append, h.run_append_lf hs]
  · have hdecode := h.run_append_cr hs line rest
    cases line with
    | nil =>
        rw [run_nil, h.close_start, List.nil_append, List.nil_append] at hdecode
        have htext : dropLineFeed '\n' (d.decode (cr :: rest)) = d.decode (cr :: rest) := by
          rw [decode, hdecode]
          rfl
        rw [List.nil_append, htext, dropLineFeed, if_neg h.ne]
    | cons a line =>
        have htext := hkept ('\r' :: d.decode rest) (h.endFree_run hs hline)
          (h.run_ne_nil hs (by simp))
        rw [decode, decode, hdecode, htext, List.cons_append, dropLineFeed,
          if_neg (endFree_cons.mp hline).1.2, ← List.cons_append, hdecode]

/-- **The decoded lines are the lines of the decoded text.** -/
theorem map_decode_linesOf [DecidableEq α] (h : d.KeepsLineEnds cr lf Sound) (units : List α) :
    (linesOf cr lf units).map d.decode = linesOf '\r' '\n' (d.decode units) := by
  induction hlength : units.length using Nat.strongRecOn generalizing units with
  | ind length ih =>
      subst hlength
      have hs := h.sound_start
      rcases first_end cr lf units with hfree | ⟨line, rest, rfl, hline⟩ | ⟨line, rest, rfl, hline⟩
      · by_cases hempty : units = []
        · rw [hempty, linesOf_nil, h.decode_nil]
          rfl
        · rw [linesOf_of_endFree hfree hempty, decode,
            linesOf_of_endFree (h.endFree_run hs hfree) (h.run_ne_nil hs hempty)]
          rfl
      · have hrest := ih rest.length (by simp; omega) rest rfl
        rw [linesOf_append_lf hline, decode, h.run_append_lf hs,
          linesOf_append_lf (h.endFree_run hs hline), List.map_cons, hrest, decode]
      · have hle := length_dropLineFeed_le lf rest
        have hrest := ih (dropLineFeed lf rest).length (by simp; omega) _ rfl
        rw [linesOf_append_cr h.ne hline, decode, h.run_append_cr hs,
          linesOf_append_cr (by decide) (h.endFree_run hs hline), List.map_cons, hrest,
          h.decode_dropLineFeed, decode]

end KeepsLineEnds

end Decoder

end RegistryText
