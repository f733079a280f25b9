import Solvency.Fault

/-! # Exact ratios

Unit counts are scaled by a quotient of two whole numbers, rounded down or up.
-/
namespace Solvency

/-- The quotient rounded up. -/
def divUp (n d : Nat) : Nat := (n + d - 1) / d

structure Ratio where
  numerator : Nat
  denominator : Nat
deriving DecidableEq

namespace Ratio

def floor (r : Ratio) (units : Nat) : Except Fault Nat :=
  narrow .ratio (units * r.numerator / r.denominator)

def ceil (r : Ratio) (units : Nat) : Except Fault Nat :=
  narrow .ratio (divUp (units * r.numerator) r.denominator)

end Ratio
end Solvency
