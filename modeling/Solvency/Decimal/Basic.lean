import Solvency.Magnitude

/-! # Bounded decimals

A decimal is a mantissa below two to the ninety-sixth over a power of ten of at most twenty-eight
places. Products are exact as long as they fit; a product that does not fit gives up its last
digits, as few of them as possible, with one rounding to the nearest and ties to the even digit.
-/
namespace Solvency

structure Decimal where
  negative : Bool
  mantissa : Nat
  scale : Nat
deriving DecidableEq

namespace Decimal

def maxMantissa : Nat := Nat.pow 2 96 - 1

def maxScale : Nat := 28

def ofNat (n : Nat) : Decimal := ⟨false, n, 0⟩

/-- The quotient rounded to the nearest whole number, a tie to the even one. -/
def roundEven (n d : Nat) : Nat :=
  let q := n / d
  let r := n % d
  if d < 2 * r ∨ (d = 2 * r ∧ q % 2 = 1) then q + 1 else q

/-- Dropping `k` digits of the `scale` digits after the point leaves a mantissa that has room. -/
def fits (mantissa scale k : Nat) : Bool :=
  scale - k ≤ maxScale && roundEven mantissa (tenTo k) ≤ maxMantissa

def times? (x y : Decimal) : Option Decimal :=
  let mantissa := x.mantissa * y.mantissa
  let scale := x.scale + y.scale
  ((List.range (scale + 1)).find? (fits mantissa scale)).map fun k =>
    ⟨x.negative != y.negative, roundEven mantissa (tenTo k), scale - k⟩

/-- The number less what stands after the point, without its sign. -/
def whole (x : Decimal) : Nat := x.mantissa / tenTo x.scale

def isBelowZero (x : Decimal) : Bool := x.negative && x.mantissa != 0

end Decimal
end Solvency
