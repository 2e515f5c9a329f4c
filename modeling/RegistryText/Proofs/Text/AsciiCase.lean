import RegistryText.Text.LowerCase

/-!
# Lower case and ASCII case

The names of values are compared up to the case of ASCII letters, and the paths of keys in
full lower case.  The two cases of an ASCII letter have the same lower case and look the same
to a capital sigma near them (`LooksAlike`), so **texts that are equal up to ASCII case are
equal in lower case** (`lowerCase_eq_of_sameIgnoringAsciiCase`).  The converse holds of texts in
which lower case changes no letter outside of ASCII (`sameIgnoringAsciiCase_iff`), and not in
general.
-/

namespace RegistryText.Text

/-- Lower case does not tell two characters apart, neither itself nor in its look around a
capital sigma. -/
structure LooksAlike (c d : Char) : Prop where
  sigma : c = capitalSigma ↔ d = capitalSigma
  lower : lowerCaseChar c = lowerCaseChar d
  cased : isCased c = isCased d
  ignorable : isCaseIgnorable c = isCaseIgnorable d

/-- No letter of ASCII is case-ignorable. -/
theorem apart_of_mem_caseIgnorableRanges : ∀ range ∈ caseIgnorableRanges,
    (range.2 < 0x41 ∨ 0x5A < range.1) ∧ (range.2 < 0x61 ∨ 0x7A < range.1) := by
  decide +kernel

theorem isCaseIgnorable_of_letter {c : Char}
    (h : (0x41 ≤ c.toNat ∧ c.toNat ≤ 0x5A) ∨ (0x61 ≤ c.toNat ∧ c.toNat ≤ 0x7A)) :
    isCaseIgnorable c = false := by
  apply List.any_eq_false.mpr
  intro range hrange hin
  have hapart := apart_of_mem_caseIgnorableRanges range hrange
  simp only [Bool.and_eq_true, decide_eq_true_eq] at hin
  omega

/-- The two cases of the letters of ASCII, counted from the first one. -/
theorem cases_of_letter : ∀ k < 26,
    (Char.ofNat (0x61 + k)).toNat = 0x61 + k ∧
      (Char.ofNat (0x61 + k) = capitalSigma ↔ Char.ofNat (0x41 + k) = capitalSigma) ∧
      lowerCaseChar (Char.ofNat (0x61 + k)) = lowerCaseChar (Char.ofNat (0x41 + k)) ∧
      isCased (Char.ofNat (0x61 + k)) = isCased (Char.ofNat (0x41 + k)) := by
  decide +kernel

theorem looksAlike_asciiLower (c : Char) : LooksAlike (asciiLower c) c := by
  unfold asciiLower
  split
  next hcapital =>
    have hfirst : 0x41 ≤ c.toNat := hcapital.1
    have hlast : c.toNat ≤ 0x5A := hcapital.2
    obtain ⟨k, hk⟩ : ∃ k, c.toNat = 0x41 + k := ⟨c.toNat - 0x41, by omega⟩
    obtain ⟨hcode, hsigma, hlower, hcased⟩ := cases_of_letter k (by omega)
    have hc : Char.ofNat (0x41 + k) = c := by rw [← hk, Char.ofNat_toNat]
    have hsmall : c.toNat + 32 = 0x61 + k := by omega
    have hignorable : isCaseIgnorable (Char.ofNat (0x61 + k)) = isCaseIgnorable c := by
      rw [isCaseIgnorable_of_letter (by omega), isCaseIgnorable_of_letter (by omega)]
    rw [hc] at hsigma hlower hcased
    rw [hsmall]
    exact ⟨hsigma, hlower, hcased, hignorable⟩
  next => exact ⟨Iff.rfl, rfl, rfl, rfl⟩

theorem meetsCased_map_asciiLower (t : Text) : meetsCased (t.map asciiLower) = meetsCased t := by
  induction t with
  | nil => rfl
  | cons c t ih =>
      have halike := looksAlike_asciiLower c
      unfold meetsCased at ih ⊢
      by_cases hc : isCaseIgnorable c = true
      · simpa [halike.ignorable, hc] using ih
      · simp [halike.ignorable, halike.cased, hc]

theorem lowerCaseBehind_map_asciiLower (back t : Text) :
    lowerCaseBehind (back.map asciiLower) (t.map asciiLower) = lowerCaseBehind back t := by
  induction t generalizing back with
  | nil => rfl
  | cons c t ih =>
      have halike := looksAlike_asciiLower c
      have hrest := ih (c :: back)
      rw [List.map_cons] at hrest
      rw [List.map_cons, lowerCaseBehind, lowerCaseBehind, hrest, halike.lower, lowerSigma,
        meetsCased_map_asciiLower, meetsCased_map_asciiLower, ← lowerSigma]
      simp only [halike.sigma]

/-- ASCII case does not matter to lower case. -/
theorem lowerCase_map_asciiLower (t : Text) : lowerCase (t.map asciiLower) = lowerCase t :=
  lowerCaseBehind_map_asciiLower [] t

/-- **Texts that are equal up to ASCII case are equal in lower case.** -/
theorem lowerCase_eq_of_sameIgnoringAsciiCase {s t : Text}
    (h : sameIgnoringAsciiCase s t = true) : s.lowerCase = t.lowerCase := by
  have hsame : s.map asciiLower = t.map asciiLower := by
    simpa [sameIgnoringAsciiCase] using h
  calc s.lowerCase
      = lowerCase (s.map asciiLower) := (lowerCase_map_asciiLower s).symm
    _ = lowerCase (t.map asciiLower) := by rw [hsame]
    _ = t.lowerCase := lowerCase_map_asciiLower t

/-- Lower case changes no letter outside of ASCII. -/
def HasAsciiCase (t : Text) : Prop :=
  ∀ c ∈ t, lowerCaseChar c = [asciiLower c]

instance (t : Text) : Decidable t.HasAsciiCase :=
  List.decidableBAll (fun c => lowerCaseChar c = [asciiLower c]) t

theorem hasAsciiCase_of_ascii {t : Text} (h : ∀ c ∈ t, c.toNat < 0x80) : t.HasAsciiCase := by
  intro c hc
  have hsmall := h c hc
  have hdotted : c ≠ dottedCapitalI := by
    intro heq
    rw [heq] at hsmall
    exact absurd hsmall (by decide)
  rw [lowerCaseChar, if_neg hdotted, simpleLowerCase, if_pos hsmall]

/-- The lower case of such a text is made letter by letter; a capital sigma is not in it. -/
theorem HasAsciiCase.lowerCase_eq {t : Text} (h : t.HasAsciiCase) :
    t.lowerCase = t.map asciiLower := by
  have hbehind : ∀ back, lowerCaseBehind back t = t.map asciiLower := by
    induction t with
    | nil =>
        intro back
        rfl
    | cons c t ih =>
        intro back
        obtain ⟨hc, ht⟩ := List.forall_mem_cons.mp h
        have hsigma : c ≠ capitalSigma := by
          intro heq
          rw [heq] at hc
          exact absurd hc (by decide +kernel)
        rw [lowerCaseBehind, if_neg hsigma, hc, ih ht]
        rfl
  exact hbehind []

/-- **Among texts in which lower case changes no letter outside of ASCII the two comparisons
agree.** -/
theorem sameIgnoringAsciiCase_iff {s t : Text} (hs : s.HasAsciiCase) (ht : t.HasAsciiCase) :
    sameIgnoringAsciiCase s t = true ↔ s.lowerCase = t.lowerCase := by
  rw [hs.lowerCase_eq, ht.lowerCase_eq]
  simp [sameIgnoringAsciiCase]

end RegistryText.Text
