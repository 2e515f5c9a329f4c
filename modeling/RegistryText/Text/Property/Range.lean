/-!
# Properties as ranges of code points

The tables of character properties in this folder list closed ranges of code
points.  They hold the data of version 17 of the Unicode standard.
-/

namespace RegistryText

/-- Whether the code point of a character lies in one of the closed ranges. -/
def inRanges (ranges : List (Nat × Nat)) (c : Char) : Bool :=
  ranges.any fun range => range.1 ≤ c.toNat && c.toNat ≤ range.2

end RegistryText
