import RegistryText.Encoding.Utf8
import RegistryText.Lines.Reader
import RegistryText.Proofs.Encoding.LineEnds

/-!
# UTF-8

Two facts about the decoder of UTF-8, which never rejects.  It keeps line ends,
whatever is ill-formed in front of them: a byte below 80 continues no character,
and the bounds behind a first byte shut out the long forms in which a line end
could hide.  And it reads back what the encoder wrote.
-/

namespace RegistryText.Utf8

/-! ### First bytes -/

/-- What a byte does between two characters, by its number. -/
theorem lead_eq (b : UInt8) : lead b =
    if b.toNat < 0x80 then ([Char.ofNat b.toNat], none)
    else if b.toNat < 0xC2 then ([replacementChar], none)
    else if b.toNat < 0xE0 then ([], some ⟨b.toNat - 0xC0, 0, 0x80, 0xBF⟩)
    else if b.toNat < 0xF0 then
      ([], some ⟨b.toNat - 0xE0, 1, if b = 0xE0 then 0xA0 else 0x80,
        if b = 0xED then 0x9F else 0xBF⟩)
    else if b.toNat < 0xF5 then
      ([], some ⟨b.toNat - 0xF0, 2, if b = 0xF0 then 0x90 else 0x80,
        if b = 0xF4 then 0x8F else 0xBF⟩)
    else ([replacementChar], none) := by
  simp only [lead, UInt8.lt_iff_toNat_lt]
  rfl

/-- A byte below 80 is a character. -/
theorem lead_one {b : UInt8} (h : b.toNat < 0x80) : lead b = ([Char.ofNat b.toNat], none) := by
  rw [lead_eq, if_pos h]

/-- The first byte of two. -/
theorem lead_two {b : UInt8} (h : 0xC2 ≤ b.toNat) (h' : b.toNat < 0xE0) :
    lead b = ([], some ⟨b.toNat - 0xC0, 0, 0x80, 0xBF⟩) := by
  rw [lead_eq, if_neg (by omega), if_neg (by omega), if_pos h']

/-- The first byte of three. -/
theorem lead_three {b : UInt8} (h : 0xE0 ≤ b.toNat) (h' : b.toNat < 0xF0) :
    lead b = ([], some ⟨b.toNat - 0xE0, 1, if b = 0xE0 then 0xA0 else 0x80,
      if b = 0xED then 0x9F else 0xBF⟩) := by
  rw [lead_eq, if_neg (by omega), if_neg (by omega), if_neg (by omega), if_pos h']

/-- The first byte of four. -/
theorem lead_four {b : UInt8} (h : 0xF0 ≤ b.toNat) (h' : b.toNat < 0xF5) :
    lead b = ([], some ⟨b.toNat - 0xF0, 2, if b = 0xF0 then 0x90 else 0x80,
      if b = 0xF4 then 0x8F else 0xBF⟩) := by
  rw [lead_eq, if_neg (by omega), if_neg (by omega), if_neg (by omega), if_neg (by omega),
    if_pos h']

/-- Every other byte begins no character. -/
theorem lead_ill {b : UInt8} (h : 0x80 ≤ b.toNat) (h' : b.toNat < 0xC2 ∨ 0xF5 ≤ b.toNat) :
    lead b = ([replacementChar], none) := by
  rw [lead_eq, if_neg (by omega)]
  rcases h' with hlow | hhigh
  · rw [if_pos hlow]
  · rw [if_neg (by omega), if_neg (by omega), if_neg (by omega), if_neg (by omega)]

/-- The unfinished characters that the decoder reaches: the next byte is a
continuation byte, and the character will be none of the first 128. -/
def Reached : Option Pending → Prop
  | none => True
  | some p => 0x80 ≤ p.low.toNat ∧
      (2 ≤ p.value ∨ (0 < p.more ∧ 2 ≤ 64 * p.value + (p.low.toNat - 0x80)))

/-- What a byte does between two characters. -/
theorem lead_cases (b : UInt8) :
    (b.toNat < 0x80 ∧ lead b = ([Char.ofNat b.toNat], none)) ∨
      lead b = ([replacementChar], none) ∨
      ∃ p, lead b = ([], some p) ∧ Reached (some p) := by
  by_cases hone : b.toNat < 0x80
  · exact Or.inl ⟨hone, lead_one hone⟩
  by_cases hill : b.toNat < 0xC2 ∨ 0xF5 ≤ b.toNat
  · exact Or.inr (Or.inl (lead_ill (by omega) hill))
  refine Or.inr (Or.inr ?_)
  by_cases htwo : b.toNat < 0xE0
  · refine ⟨_, lead_two (by omega) htwo, Nat.le_refl _, Or.inl ?_⟩
    show 2 ≤ b.toNat - 0xC0
    omega
  by_cases hthree : b.toNat < 0xF0
  · refine ⟨_, lead_three (by omega) hthree, ?_⟩
    by_cases hlong : b = 0xE0
    · subst hlong
      exact ⟨by decide, Or.inr (by decide)⟩
    · have hne : b.toNat ≠ 0xE0 := fun heq => hlong (UInt8.toNat_inj.mp heq)
      rw [if_neg hlong]
      refine ⟨Nat.le_refl _, Or.inr ⟨Nat.one_pos, ?_⟩⟩
      simp only [UInt8.reduceToNat]
      omega
  · refine ⟨_, lead_four (by omega) (by omega), ?_⟩
    by_cases hlong : b = 0xF0
    · subst hlong
      exact ⟨by decide, Or.inr (by decide)⟩
    · have hne : b.toNat ≠ 0xF0 := fun heq => hlong (UInt8.toNat_inj.mp heq)
      rw [if_neg hlong]
      refine ⟨Nat.le_refl _, Or.inr ⟨Nat.two_pos, ?_⟩⟩
      simp only [UInt8.reduceToNat]
      omega

/-! ### Line ends -/

/-- The byte of a line end, or any other below 80, ends what is unfinished. -/
theorem step_ascii {s : Option Pending} (hs : Reached s) {b : UInt8} (hb : b.toNat < 0x80) :
    step s b = (decoder.close s ++ [Char.ofNat b.toNat], none) := by
  cases s with
  | none => exact lead_one hb
  | some p =>
      have hlow : ¬p.low ≤ b := by
        have hbound := hs.1
        rw [UInt8.le_iff_toNat_le]
        omega
      simp [step, hlow, lead_one hb, decoder]

/-- The first byte of a character ends a line only if it is a line end itself. -/
theorem endFree_lead {b : UInt8} (hb : b.toNat ≠ 0x0D ∧ b.toNat ≠ 0x0A) :
    EndFree '\r' '\n' (lead b).1 := by
  rcases lead_cases b with ⟨-, hlead⟩ | hlead | ⟨p, hlead, -⟩
  · rw [hlead]
    exact endFree_charOfNat hb.1 hb.2
  · rw [hlead]
    exact endFree_replacementChar
  · rw [hlead]
    exact endFree_nil

/-- What is pending behind a first byte can be reached. -/
theorem reached_lead (b : UInt8) : Reached (lead b).2 := by
  rcases lead_cases b with ⟨-, hlead⟩ | hlead | ⟨p, hlead, hp⟩
  · rw [hlead]
    trivial
  · rw [hlead]
    trivial
  · rwa [hlead]

/-- A first byte gives a character, or one is due for it. -/
theorem emits_lead (b : UInt8) : (lead b).1 ≠ [] ∨ decoder.close (lead b).2 ≠ [] := by
  rcases lead_cases b with ⟨-, hlead⟩ | hlead | ⟨p, hlead, -⟩
  · exact Or.inl (by simp [hlead])
  · exact Or.inl (by simp [hlead])
  · exact Or.inr (by simp [hlead, decoder])

/-- What a byte adds to an unfinished character is at least two. -/
theorem two_le_value {p : Pending} (hp : Reached (some p)) {b : UInt8} (hb : p.low ≤ b) :
    2 ≤ 64 * p.value + (b.toNat - 0x80) := by
  have hlow := UInt8.le_iff_toNat_le.mp hb
  obtain ⟨hbound, hvalue | ⟨-, hvalue⟩⟩ := hp <;> omega

/-- **What is pending behind a byte can be reached.** -/
theorem reached_step {s : Option Pending} (hs : Reached s) (b : UInt8) : Reached (step s b).2 := by
  cases s with
  | none => exact reached_lead b
  | some p =>
      simp only [step]
      split
      next hb =>
        split
        · trivial
        · exact ⟨Nat.le_refl _, Or.inl (two_le_value hs hb.1)⟩
      · exact reached_lead b

/-- A continuation byte completes no line end. -/
theorem endFree_step {s : Option Pending} (hs : Reached s) {b : UInt8}
    (hb : b.toNat ≠ 0x0D ∧ b.toNat ≠ 0x0A) : EndFree '\r' '\n' (step s b).1 := by
  cases s with
  | none => exact endFree_lead hb
  | some p =>
      simp only [step]
      split
      · split
        next hmore =>
          have hvalue : 2 ≤ p.value := by
            obtain ⟨-, hvalue | ⟨hpos, -⟩⟩ := hs
            · exact hvalue
            · omega
          exact endFree_charOfNat (by omega) (by omega)
        · exact endFree_nil
      · exact endFree_append.mpr ⟨endFree_replacementChar, endFree_lead hb⟩

/-- Every byte gives a character, or one is due for it. -/
theorem emits_step (s : Option Pending) (b : UInt8) :
    (step s b).1 ≠ [] ∨ decoder.close (step s b).2 ≠ [] := by
  cases s with
  | none => exact emits_lead b
  | some p =>
      simp only [step]
      split
      · split
        · exact Or.inl (by simp)
        · exact Or.inr (by simp [decoder])
      · exact Or.inl (by simp)

/-- The decoder keeps line ends. -/
theorem keepsLineEnds_decoder : decoder.KeepsLineEnds 0x0D 0x0A Reached where
  ne := by decide
  sound_start := trivial
  sound_step hs b := reached_step hs b
  close_start := rfl
  step_cr hs := step_ascii hs (by decide)
  step_lf hs := step_ascii hs (by decide)
  endFree_step hs hb := endFree_step hs
    ⟨fun h => hb.1 (UInt8.toNat_inj.mp h), fun h => hb.2 (UInt8.toNat_inj.mp h)⟩
  endFree_close := by
    intro s _
    cases s with
    | none => exact endFree_nil
    | some p => exact endFree_replacementChar
  emits _ b := emits_step _ b

/-! ### Reading back -/

/-- The first byte of a character. -/
theorem run_lead {b : UInt8} {out : Text} {s : Option Pending} (h : lead b = (out, s))
    (rest : Bytes) : decoder.run none (b :: rest) = out ++ decoder.run s rest := by
  simp [Decoder.run_cons, decoder, step, h]

/-- The next byte of an unfinished character. -/
theorem run_more {value more : Nat} {low high b : UInt8} (hlow : low.toNat ≤ b.toNat)
    (hhigh : b.toNat ≤ high.toNat) (rest : Bytes) :
    decoder.run (some ⟨value, more + 1, low, high⟩) (b :: rest) =
      decoder.run (some ⟨64 * value + (b.toNat - 0x80), more, 0x80, 0xBF⟩) rest := by
  have hbounds : low ≤ b ∧ b ≤ high :=
    ⟨UInt8.le_iff_toNat_le.mpr hlow, UInt8.le_iff_toNat_le.mpr hhigh⟩
  simp [Decoder.run_cons, decoder, step, hbounds]

/-- The last byte of an unfinished character. -/
theorem run_last {value : Nat} {low high b : UInt8} (hlow : low.toNat ≤ b.toNat)
    (hhigh : b.toNat ≤ high.toNat) (rest : Bytes) :
    decoder.run (some ⟨value, 0, low, high⟩) (b :: rest) =
      Char.ofNat (64 * value + (b.toNat - 0x80)) :: decoder.run none rest := by
  have hbounds : low ≤ b ∧ b ≤ high :=
    ⟨UInt8.le_iff_toNat_le.mpr hlow, UInt8.le_iff_toNat_le.mpr hhigh⟩
  simp [Decoder.run_cons, decoder, step, hbounds]

/-- A continuation byte. -/
def Continues (b : UInt8) : Prop :=
  (0x80 : UInt8).toNat ≤ b.toNat ∧ b.toNat ≤ (0xBF : UInt8).toNat

/-- Two bytes of a character give it. -/
theorem run_two {a b : UInt8} (ha : 0xC2 ≤ a.toNat ∧ a.toNat < 0xE0) (hb : Continues b)
    (rest : Bytes) : decoder.run none (a :: b :: rest) =
      Char.ofNat (64 * (a.toNat - 0xC0) + (b.toNat - 0x80)) :: decoder.run none rest := by
  rw [run_lead (lead_two ha.1 ha.2), List.nil_append, run_last hb.1 hb.2]

/-- The second byte of three lies within the bounds that the first one sets. -/
theorem run_three {a b c : UInt8} (ha : 0xE0 ≤ a.toNat ∧ a.toNat < 0xF0) (hb : Continues b)
    (hlow : a.toNat = 0xE0 → 0xA0 ≤ b.toNat) (hhigh : a.toNat = 0xED → b.toNat ≤ 0x9F)
    (hc : Continues c) (rest : Bytes) : decoder.run none (a :: b :: c :: rest) =
      Char.ofNat (64 * (64 * (a.toNat - 0xE0) + (b.toNat - 0x80)) + (c.toNat - 0x80)) ::
        decoder.run none rest := by
  have hlow' : (if a = 0xE0 then 0xA0 else 0x80 : UInt8).toNat ≤ b.toNat := by
    split
    next heq => exact hlow (congrArg UInt8.toNat heq)
    · exact hb.1
  have hhigh' : b.toNat ≤ (if a = 0xED then 0x9F else 0xBF : UInt8).toNat := by
    split
    next heq => exact hhigh (congrArg UInt8.toNat heq)
    · exact hb.2
  rw [run_lead (lead_three ha.1 ha.2), List.nil_append, run_more hlow' hhigh', run_last hc.1 hc.2]

/-- The second byte of four lies within the bounds that the first one sets. -/
theorem run_four {a b c e : UInt8} (ha : 0xF0 ≤ a.toNat ∧ a.toNat < 0xF5) (hb : Continues b)
    (hlow : a.toNat = 0xF0 → 0x90 ≤ b.toNat) (hhigh : a.toNat = 0xF4 → b.toNat ≤ 0x8F)
    (hc : Continues c) (he : Continues e) (rest : Bytes) :
    decoder.run none (a :: b :: c :: e :: rest) =
      Char.ofNat (64 * (64 * (64 * (a.toNat - 0xF0) + (b.toNat - 0x80)) + (c.toNat - 0x80)) +
        (e.toNat - 0x80)) :: decoder.run none rest := by
  have hlow' : (if a = 0xF0 then 0x90 else 0x80 : UInt8).toNat ≤ b.toNat := by
    split
    next heq => exact hlow (congrArg UInt8.toNat heq)
    · exact hb.1
  have hhigh' : b.toNat ≤ (if a = 0xF4 then 0x8F else 0xBF : UInt8).toNat := by
    split
    next heq => exact hhigh (congrArg UInt8.toNat heq)
    · exact hb.2
  rw [run_lead (lead_four ha.1 ha.2), List.nil_append, run_more hlow' hhigh',
    run_more hc.1 hc.2, run_last he.1 he.2]

/-- A number below 256 fits in a byte. -/
theorem toNat_ofNat {n : Nat} (h : n < 256) : (UInt8.ofNat n).toNat = n :=
  Nat.mod_eq_of_lt h

/-- The low six bits of a number make a continuation byte. -/
theorem continues_ofNat (n : Nat) : Continues (UInt8.ofNat (n % 64 + 0x80)) := by
  have hnumber : (UInt8.ofNat (n % 64 + 0x80)).toNat = n % 64 + 0x80 := toNat_ofNat (by omega)
  simp only [Continues, UInt8.reduceToNat, hnumber]
  omega

/-- The bytes of a character are read as that character. -/
theorem run_encodeChar (c : Char) (rest : Bytes) :
    decoder.run none (String.utf8EncodeChar c ++ rest) = c :: decoder.run none rest := by
  have hvalid : c.toNat < 0xD800 ∨ (0xDFFF < c.toNat ∧ c.toNat < 0x110000) := c.valid
  have hchar := Char.ofNat_toNat c
  generalize hn : c.toNat = n at hvalid hchar
  have hval : c.val.toNat = n := hn
  have hlast : (UInt8.ofNat (n % 64 + 0x80)).toNat = n % 64 + 0x80 := toNat_ofNat (by omega)
  have hthird : (UInt8.ofNat (n / 64 % 64 + 0x80)).toNat = n / 64 % 64 + 0x80 :=
    toNat_ofNat (by omega)
  have hsecond : (UInt8.ofNat (n / 4096 % 64 + 0x80)).toNat = n / 4096 % 64 + 0x80 :=
    toNat_ofNat (by omega)
  simp only [String.utf8EncodeChar, hval]
  split
  next hone =>
    have hfirst : (UInt8.ofNat n).toNat = n := toNat_ofNat (by omega)
    rw [List.cons_append, run_lead (lead_one (by omega)), hfirst, hchar]
    rfl
  split
  next htwo =>
    have hfirst : (UInt8.ofNat (n / 64 % 32 + 0xC0)).toNat = n / 64 % 32 + 0xC0 :=
      toNat_ofNat (by omega)
    have hnumber : 64 * (n / 64 % 32 + 0xC0 - 0xC0) + (n % 64 + 0x80 - 0x80) = n := by omega
    simp only [List.cons_append, List.nil_append]
    rw [run_two (by omega) (continues_ofNat n), hfirst, hlast, hnumber, hchar]
  split
  next hthree =>
    have hfirst : (UInt8.ofNat (n / 4096 % 16 + 0xE0)).toNat = n / 4096 % 16 + 0xE0 :=
      toNat_ofNat (by omega)
    have hnumber : 64 * (64 * (n / 4096 % 16 + 0xE0 - 0xE0) + (n / 64 % 64 + 0x80 - 0x80)) +
        (n % 64 + 0x80 - 0x80) = n := by omega
    simp only [List.cons_append, List.nil_append]
    rw [run_three (by omega) (continues_ofNat _) (by omega) (by omega) (continues_ofNat n),
      hfirst, hthird, hlast, hnumber, hchar]
  next hfour =>
    have hfirst : (UInt8.ofNat (n / 262144 % 8 + 0xF0)).toNat = n / 262144 % 8 + 0xF0 :=
      toNat_ofNat (by omega)
    have hnumber : 64 * (64 * (64 * (n / 262144 % 8 + 0xF0 - 0xF0) +
        (n / 4096 % 64 + 0x80 - 0x80)) + (n / 64 % 64 + 0x80 - 0x80)) +
        (n % 64 + 0x80 - 0x80) = n := by omega
    simp only [List.cons_append, List.nil_append]
    rw [run_four (by omega) (continues_ofNat _) (by omega) (by omega) (continues_ofNat _)
      (continues_ofNat n), hfirst, hsecond, hthird, hlast, hnumber, hchar]

/-- No byte of a character is as high as those of a byte order mark. -/
theorem lt_of_mem_encodeChar {c : Char} {b : UInt8} (h : b ∈ String.utf8EncodeChar c) :
    b.toNat < 0xF8 := by
  have hof : ∀ {n : Nat}, n < 0xF8 → (UInt8.ofNat n).toNat < 0xF8 := by
    intro n hn
    rw [toNat_ofNat (by omega)]
    exact hn
  simp only [String.utf8EncodeChar] at h
  split at h
  next hone =>
    obtain rfl := List.mem_singleton.mp h
    exact hof (by omega)
  -- Behind the first byte stand continuation bytes only.
  split at h
  next htwo =>
    simp only [List.mem_cons, List.not_mem_nil, or_false] at h
    rcases h with rfl | rfl <;> exact hof (by omega)
  split at h
  next hthree =>
    simp only [List.mem_cons, List.not_mem_nil, or_false] at h
    rcases h with rfl | rfl | rfl <;> exact hof (by omega)
  next hfour =>
    simp only [List.mem_cons, List.not_mem_nil, or_false] at h
    rcases h with rfl | rfl | rfl | rfl <;> exact hof (by omega)

/-- No text is encoded in fewer bytes than it has characters. -/
theorem length_le_encode (t : Text) : t.length ≤ (encode t).length := by
  induction t with
  | nil => exact Nat.le_refl _
  | cons c t ih =>
      have hpos := Char.utf8Size_pos c
      have hcons : encode (c :: t) = String.utf8EncodeChar c ++ encode t := List.flatMap_cons
      rw [hcons, List.length_append, String.length_utf8EncodeChar, List.length_cons]
      omega

/-- **What has been encoded is decoded again.** -/
theorem decode_encode (t : Text) : decode (encode t) = t := by
  have hrun : decoder.run none (encode t) = t := by
    induction t with
    | nil => rfl
    | cons c t ih =>
        rw [encode, List.flatMap_cons, run_encodeChar]
        exact congrArg (c :: ·) ih
  exact hrun

end RegistryText.Utf8
