/-!
# Ranges of characters

A class of characters is given by the ranges of their code points, each by its first and its
last one.
-/

namespace PoolLint.Text

/-- The character lies in one of the ranges. -/
def inRanges (ranges : List (Nat × Nat)) (c : Char) : Bool :=
  ranges.any fun (first, last) => first ≤ c.toNat && c.toNat ≤ last

end PoolLint.Text
