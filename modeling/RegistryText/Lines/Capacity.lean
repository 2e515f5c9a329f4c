/-!
# Capacity of the line buffer

The line buffer counts its capacity in code units.  It never holds less than
four, and it doubles until three units are free before every read: one read
then asks for at least two, and one stays free.

The first capacity is chosen freely, but it is a machine word of 64 bits
(`BufferSize`).  Whether a machine can have so large a buffer is another matter:
none has more than `maxBufferBytes` bytes.
-/

namespace RegistryText

/-- A capacity of at least four code units. -/
structure Capacity where
  /-- The number of code units. -/
  units : Nat
  four_le : 4 ≤ units

namespace Capacity

/-- The capacity closest to a number of units. -/
def ofNat (units : Nat) : Capacity :=
  if h : 4 ≤ units then ⟨units, h⟩ else ⟨4, Nat.le_refl 4⟩

/-- The capacity of a reader that is not told another. -/
def standard : Capacity :=
  ⟨4096, by decide⟩

/-- Twice the capacity. -/
def double (c : Capacity) : Capacity :=
  ⟨2 * c.units, Nat.le_trans c.four_le (Nat.le_mul_of_pos_left _ (by decide))⟩

/-- Double until three units beside the pending ones are free. -/
def grow (c : Capacity) (pending : Nat) : Capacity :=
  if c.units - pending < 3 then c.double.grow pending else c
termination_by pending + 3 - c.units
decreasing_by
  have := c.four_le
  simp only [double]
  omega

/-- A grown capacity has three free units. -/
theorem three_le_grow_sub (c : Capacity) (pending : Nat) :
    3 ≤ (c.grow pending).units - pending := by
  fun_induction grow c pending with
  | case1 c h ih => exact ih
  | case2 c h => omega

end Capacity

/-- A capacity that is a machine word. -/
structure BufferSize extends Capacity where
  isWord : units < UInt64.size

namespace BufferSize

/-- The size closest to a number of units. -/
def ofWord (units : UInt64) : BufferSize where
  toCapacity := .ofNat units.toNat
  isWord := by
    unfold Capacity.ofNat
    split
    · exact units.toNat_lt
    · decide

/-- The size of a buffer when no other is chosen. -/
def standard : BufferSize :=
  ⟨.standard, by decide⟩

end BufferSize

/-- The most bytes that a buffer can have: the largest word with a sign. -/
def maxBufferBytes : Nat := 0x7FFFFFFFFFFFFFFF

end RegistryText
