import Solvency.Decimal.Reader
import Solvency.Text.Blank
import Solvency.Magnitude

/-! # Amounts

An amount is a whole number of the smallest units of a token. `scaled?` reads a decimal text and
cuts off what is left below the unit; `render` writes units back with at least one digit behind the
point and no other zero at the end.
-/
namespace Solvency.Amount
open Solvency.Text

def multiplierLimit : Nat := Nat.pow 2 63

/-- The text, multiplied and truncated. Negative amounts and products without room have none. -/
def scaled? (text : String) (multiplier : Nat) : Option Nat := do
  let x ← Decimal.read (trim text.toList)
  if x.isBelowZero ∨ multiplierLimit ≤ multiplier then none
  else
    let y ← x.times? (Decimal.ofNat multiplier)
    return y.whole

def units? (text : String) (precision : Nat) : Option Nat :=
  (scaled? text (tenTo precision)).filter (· < wordLimit)

/-- The digits behind the point: padded to the precision, then without zeros at the end. -/
def fractionDigits (precision fraction : Nat) : List Char :=
  match dropEndWhile (· == '0') ((digits fraction).leftpad precision '0') with
  | [] => ['0']
  | ds => ds

def magnitudeText (precision magnitude : Nat) : List Char :=
  digits (magnitude / tenTo precision) ++
    '.' :: fractionDigits precision (magnitude % tenTo precision)

def render (precision : Nat) (units : Int) : String :=
  String.ofList ((if units < 0 then ['-'] else []) ++ magnitudeText precision units.natAbs)

end Solvency.Amount
