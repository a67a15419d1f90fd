/-!
# Integers of a fixed width

The numbers that fit into a number of bits, with or without a sign.
-/

namespace PoolLint

/-- The number of values that so many bits can take. -/
def capacity (bits : Nat) : Nat :=
  1 <<< bits

/-- The number fits into so many bits. -/
def fitsUnsigned (bits : Nat) (n : Int) : Bool :=
  decide (0 ≤ n) && decide (n < capacity bits)

/-- The number fits into so many bits, one of them for the sign. -/
def fitsSigned (bits : Nat) (n : Int) : Bool :=
  decide (-capacity (bits - 1) ≤ n) && decide (n < capacity (bits - 1))

/-- A natural number, if it fits into so many bits. -/
def unsigned? (bits : Nat) (n : Int) : Option Nat :=
  if fitsUnsigned bits n then some n.toNat else none

/-- An integer, if it fits into so many bits. -/
def signed? (bits : Nat) (n : Int) : Option Int :=
  if fitsSigned bits n then some n else none

end PoolLint
