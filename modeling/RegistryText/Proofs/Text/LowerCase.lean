import RegistryText.Text.LowerCase

/-!
# Lower case of paths

The lower case of a capital sigma depends on what stands around it, so the lower
case of a text is not made up of those of its parts in general.  A backslash is
neither a letter with case nor passed over by the look around a sigma: **the lower
case of a path is made up of those of its components** (`lowerCase_append`).  No other
character has a backslash in its lower case, so **the lower case of a component is one
component** (`backslash_not_mem_lowerCase`).
-/

namespace RegistryText.Text

/-- The look for a cased letter ends at a backslash. -/
theorem meetsCased_append (s t : Text) : meetsCased (s ++ '\\' :: t) = meetsCased s := by
  have hkept : isCaseIgnorable '\\' = false := by decide +kernel
  have hcaseless : isCased '\\' = false := by decide +kernel
  induction s with
  | nil => simp [meetsCased, hkept, hcaseless]
  | cons c s ih =>
      by_cases hc : isCaseIgnorable c = true
      · simpa [meetsCased, hc] using ih
      · simp [meetsCased, hc]

/-- What stands behind a backslash does not count for a sigma in front of it. -/
theorem lowerSigma_ahead (back s t : Text) :
    lowerSigma back (s ++ '\\' :: t) = lowerSigma back s := by
  rw [lowerSigma, meetsCased_append, lowerSigma]

/-- What stands in front of a backslash does not count for a sigma behind it. -/
theorem lowerSigma_behind (back front s : Text) :
    lowerSigma (back ++ '\\' :: front) s = lowerSigma back s := by
  rw [lowerSigma, meetsCased_append, lowerSigma]

theorem lowerCaseBehind_behind (back front t : Text) :
    lowerCaseBehind (back ++ '\\' :: front) t = lowerCaseBehind back t := by
  induction t generalizing back with
  | nil => rfl
  | cons c t ih =>
      have hrest := ih (c :: back)
      rw [List.cons_append] at hrest
      rw [lowerCaseBehind, lowerCaseBehind, lowerSigma_behind, hrest]

/-- **A backslash cuts the lower case of a text in two.** -/
theorem lowerCase_append (s t : Text) :
    lowerCase (s ++ '\\' :: t) = lowerCase s ++ '\\' :: lowerCase t := by
  have hbehind : ∀ back, lowerCaseBehind back (s ++ '\\' :: t) =
      lowerCaseBehind back s ++ '\\' :: lowerCase t := by
    have hslash : lowerCaseChar '\\' = ['\\'] := by decide
    have hne : '\\' ≠ capitalSigma := by decide
    induction s with
    | nil =>
        intro back
        have ht : lowerCaseBehind ('\\' :: back) t = lowerCase t := lowerCaseBehind_behind [] back t
        simp [lowerCaseBehind, hslash, hne, ht]
    | cons c s ih =>
        intro back
        simp only [List.cons_append, lowerCaseBehind, lowerSigma_ahead, ih, List.append_assoc]
  exact hbehind []

/-! ### Backslashes in lower case -/

/-- A code point behind that of the backslash does not give the backslash. -/
theorem ofNat_ne_backslash {n : Nat} (h : 0x5C < n) : Char.ofNat n ≠ '\\' := by
  intro heq
  by_cases hvalid : n.isValidChar
  · have hcode := congrArg Char.toNat heq
    rw [Char.ofNat, dif_pos hvalid] at hcode
    have hn : n = 0x5C := hcode
    omega
  · rw [Char.ofNat, dif_neg hvalid] at heq
    exact absurd heq (by decide)

/-- All runs of capitals lead to letters behind the backslash. -/
theorem backslash_lt_target : ∀ run ∈ lowerCaseRuns, 0x5C < run.target := by
  decide +kernel

theorem simpleLowerCase_ne_backslash {c : Char} (hc : c ≠ '\\') : simpleLowerCase c ≠ '\\' := by
  unfold simpleLowerCase
  split
  next =>
    unfold asciiLower
    split
    next hcapital =>
      have hcode : 0x41 ≤ c.toNat := hcapital.1
      apply ofNat_ne_backslash
      omega
    next => exact hc
  next =>
    split
    next n hn =>
      obtain ⟨run, hrun, hmap⟩ := List.exists_of_findSome?_eq_some hn
      have hbound := backslash_lt_target run hrun
      unfold CaseRun.map? at hmap
      split at hmap
      next =>
        obtain rfl := Option.some.inj hmap
        apply ofNat_ne_backslash
        omega
      next => cases hmap
    next => exact hc

theorem backslash_not_mem_lowerCaseChar {c : Char} (hc : c ≠ '\\') : '\\' ∉ lowerCaseChar c := by
  unfold lowerCaseChar
  split
  · decide
  · intro hmem
    exact simpleLowerCase_ne_backslash hc (List.mem_singleton.mp hmem).symm

theorem lowerSigma_ne_backslash (back ahead : Text) : lowerSigma back ahead ≠ '\\' := by
  unfold lowerSigma
  split <;> decide

/-- **No backslash comes up in lower case.** -/
theorem backslash_not_mem_lowerCase {t : Text} (h : '\\' ∉ t) : '\\' ∉ lowerCase t := by
  have hbehind : ∀ back, '\\' ∉ lowerCaseBehind back t := by
    induction t with
    | nil =>
        intro back
        exact List.not_mem_nil
    | cons c t ih =>
        intro back hmem
        have hc : c ≠ '\\' := Ne.symm (List.ne_of_not_mem_cons h)
        rw [lowerCaseBehind] at hmem
        rcases List.mem_append.mp hmem with hfirst | hrest
        · split at hfirst
          · exact lowerSigma_ne_backslash back t (List.mem_singleton.mp hfirst).symm
          · exact backslash_not_mem_lowerCaseChar hc hfirst
        · exact ih (List.not_mem_of_not_mem_cons h) _ hrest
  exact hbehind []

end RegistryText.Text
