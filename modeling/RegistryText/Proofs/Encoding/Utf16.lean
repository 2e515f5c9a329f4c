import RegistryText.Encoding.Utf16
import RegistryText.Lines.Reader
import RegistryText.Proofs.Encoding.LineEnds

/-!
# UTF-16

Three facts about the decoder of 16-bit units.  It keeps line ends: an unpaired
surrogate in front of one is replaced, and no pair is one.  It reads back what
the encoder wrote.  And the decoder of bytes does on the bytes of units what it
does on the units.
-/

namespace RegistryText.Utf16

/-! ### Line ends -/

/-- A unit between two characters yields a line end only if it is one. -/
theorem endFree_lead {u : UInt16} (hu : u ≠ carriageReturn ∧ u ≠ lineFeed) :
    EndFree '\r' '\n' (lead u).1 := by
  unfold lead
  split
  · exact endFree_nil
  split
  · exact endFree_replacementChar
  · exact endFree_charOfNat (fun h => hu.1 (UInt16.toNat_inj.mp h))
      (fun h => hu.2 (UInt16.toNat_inj.mp h))

/-- The characters of pairs lie above those of single units. -/
theorem endFree_pairChar (high low : UInt16) : EndFree '\r' '\n' [pairChar high low] :=
  endFree_charOfNat (by omega) (by omega)

theorem emits_lead (u : UInt16) :
    (lead u).1 ≠ [] ∨ unitDecoder.close (lead u).2 ≠ [] := by
  unfold lead
  split
  · exact Or.inr (by simp [unitDecoder])
  split <;> exact Or.inl (by simp)

/-- The decoder of units keeps line ends. -/
theorem keepsLineEnds_unitDecoder :
    unitDecoder.KeepsLineEnds carriageReturn lineFeed (fun _ => True) where
  ne := by decide
  sound_start := trivial
  sound_step _ _ := trivial
  close_start := rfl
  step_cr := by
    intro s _
    cases s with
    | none => decide
    | some high =>
        have hlow : isLow carriageReturn = false := by decide
        have hlead : lead carriageReturn = (['\r'], none) := by decide
        simp [unitDecoder, step, hlow, hlead]
  step_lf := by
    intro s _
    cases s with
    | none => decide
    | some high =>
        have hlow : isLow lineFeed = false := by decide
        have hlead : lead lineFeed = (['\n'], none) := by decide
        simp [unitDecoder, step, hlow, hlead]
  endFree_step := by
    intro s u _ hu
    cases s with
    | none => exact endFree_lead hu
    | some high =>
        simp only [unitDecoder, step]
        split
        · exact endFree_pairChar high u
        · exact endFree_append.mpr ⟨endFree_replacementChar, endFree_lead hu⟩
  endFree_close := by
    intro s _
    cases s with
    | none => exact endFree_nil
    | some high => exact endFree_replacementChar
  emits := by
    intro s _ u
    cases s with
    | none => exact emits_lead u
    | some high =>
        simp only [unitDecoder, step]
        split <;> exact Or.inl (by simp)

/-! ### Reading back -/

/-- The code point of a character is no surrogate. -/
theorem toNat_valid (c : Char) : c.toNat < 0xD800 ∨ (0xDFFF < c.toNat ∧ c.toNat < 0x110000) :=
  c.valid

theorem isHigh_ofNat {n : Nat} (h : n < 0x10000) :
    isHigh (UInt16.ofNat n) = true ↔ 0xD800 ≤ n ∧ n < 0xDC00 := by
  simp [isHigh, UInt16.le_iff_toNat_le, UInt16.lt_iff_toNat_lt, Nat.mod_eq_of_lt h]

theorem isLow_ofNat {n : Nat} (h : n < 0x10000) :
    isLow (UInt16.ofNat n) = true ↔ 0xDC00 ≤ n ∧ n < 0xE000 := by
  simp [isLow, UInt16.le_iff_toNat_le, UInt16.lt_iff_toNat_lt, Nat.mod_eq_of_lt h]

/-- A unit that is no surrogate is read as its character. -/
theorem run_single {u : UInt16} (hhigh : isHigh u = false) (hlow : isLow u = false)
    (rest : List UInt16) :
    unitDecoder.run none (u :: rest) = Char.ofNat u.toNat :: unitDecoder.run none rest := by
  simp [Decoder.run_cons, unitDecoder, step, lead, hhigh, hlow]

/-- A high and a low surrogate are read as the character of their pair. -/
theorem run_pair {high low : UInt16} (hhigh : isHigh high = true) (hlow : isLow low = true)
    (rest : List UInt16) :
    unitDecoder.run none (high :: low :: rest) =
      pairChar high low :: unitDecoder.run none rest := by
  simp [Decoder.run_cons, unitDecoder, step, lead, hhigh, hlow]

/-- The units of a character are read as that character. -/
theorem run_encodeChar (c : Char) (rest : List UInt16) :
    unitDecoder.run none (encodeChar c ++ rest) = c :: unitDecoder.run none rest := by
  have hvalid := toNat_valid c
  unfold encodeChar
  dsimp only
  split
  next hsmall =>
    have hhigh : isHigh (UInt16.ofNat c.toNat) = false := by
      rw [Bool.eq_false_iff, Ne, isHigh_ofNat hsmall]
      omega
    have hlow : isLow (UInt16.ofNat c.toNat) = false := by
      rw [Bool.eq_false_iff, Ne, isLow_ofNat hsmall]
      omega
    rw [List.cons_append, run_single hhigh hlow, UInt16.toNat_ofNat_of_lt' hsmall,
      Char.ofNat_toNat]
    rfl
  next hlarge =>
    have hhighLt : 0xD800 + (c.toNat - 0x10000) / 1024 < 0x10000 := by omega
    have hlowLt : 0xDC00 + (c.toNat - 0x10000) % 1024 < 0x10000 := by omega
    have hhigh := (isHigh_ofNat hhighLt).mpr (by omega)
    have hlow := (isLow_ofNat hlowLt).mpr (by omega)
    have hpair : pairChar (UInt16.ofNat (0xD800 + (c.toNat - 0x10000) / 1024))
        (UInt16.ofNat (0xDC00 + (c.toNat - 0x10000) % 1024)) = c := by
      have hnumber : 0x10000 + 1024 * (0xD800 + (c.toNat - 0x10000) / 1024 - 0xD800) +
          (0xDC00 + (c.toNat - 0x10000) % 1024 - 0xDC00) = c.toNat := by omega
      rw [pairChar, UInt16.toNat_ofNat_of_lt' hhighLt, UInt16.toNat_ofNat_of_lt' hlowLt, hnumber,
        Char.ofNat_toNat]
    rw [List.cons_append, List.cons_append, run_pair hhigh hlow, hpair]
    rfl

/-- **What has been encoded is decoded again.** -/
theorem decodeUnits_encode (t : Text) : decodeUnits (encode t) = t := by
  have hrun : unitDecoder.run none (encode t) = t := by
    induction t with
    | nil => rfl
    | cons c t ih =>
        rw [encode, List.flatMap_cons, run_encodeChar]
        exact congrArg (c :: ·) ih
  exact hrun

/-! ### Bytes of units -/

/-- The two bytes of a unit, low byte first, are read as that unit. -/
theorem unit_little (u : UInt16) :
    ByteOrder.little.unit (UInt8.ofNat u.toNat) (UInt8.ofNat (u.toNat / 256)) = u := by
  have hlt := u.toNat_lt
  apply UInt16.toNat_inj.mp
  simp only [ByteOrder.unit, UInt8.toNat_ofNat', UInt16.toNat_ofNat']
  omega

/-- The bytes of units hold these units and no lone byte. -/
theorem wholeUnits_littleEndian (units : List UInt16) :
    wholeUnits (littleEndian units) = (units, none) := by
  induction units with
  | nil => rfl
  | cons u units ih =>
      have hcons : littleEndian (u :: units) =
          UInt8.ofNat u.toNat :: UInt8.ofNat (u.toNat / 256) :: littleEndian units := rfl
      rw [hcons, wholeUnits, ih, unit_little]

/-- Two bytes are read as their unit. -/
theorem run_byteDecoder (order : ByteOrder) (high : Option UInt16) (a b : UInt8) (rest : Bytes) :
    (byteDecoder order).run ⟨none, high⟩ (a :: b :: rest) =
      (step high (order.unit a b)).1 ++
        (byteDecoder order).run ⟨none, (step high (order.unit a b)).2⟩ rest := by
  rw [Decoder.run_cons, Decoder.run_cons]
  rfl

/-- The decoder of bytes reads the bytes of units as the units. -/
theorem decode_littleEndian (units : List UInt16) :
    decode .little (littleEndian units) = decodeUnits units := by
  have hrun : ∀ high : Option UInt16,
      (byteDecoder .little).run ⟨none, high⟩ (littleEndian units) = unitDecoder.run high units := by
    induction units with
    | nil => intro high; simp [littleEndian, byteDecoder, unitDecoder]
    | cons u units ih =>
        intro high
        have hcons : littleEndian (u :: units) =
            UInt8.ofNat u.toNat :: UInt8.ofNat (u.toNat / 256) :: littleEndian units := rfl
        rw [hcons, run_byteDecoder, unit_little, ih, Decoder.run_cons]
        rfl
  exact hrun none

end RegistryText.Utf16
