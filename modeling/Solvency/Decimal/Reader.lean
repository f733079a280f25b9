import Solvency.Decimal.Basic
import Solvency.Text.Numeral

/-! # Reading decimals

The plain form is a sign, digits and at most one point; underscores may stand anywhere after the
first digit. Digits before the point must fit. After the point a digit without room only rounds,
and what follows it is checked but not read; behind the last place of a short number, an underscore
is such a digit. The scientific form adds a power of ten after an `e`.
-/
namespace Solvency.Decimal
open Solvency.Text

/-- Rounds `x` by the digit `d`, the first after it that has no room. -/
def roundBy (x : Decimal) (d : Nat) : Option Decimal :=
  let mantissa := if 5 ≤ d then x.mantissa + 1 else x.mantissa
  if mantissa ≤ maxMantissa then some { x with mantissa := mantissa }
  else if x.scale = 0 then none
  else some { x with mantissa := (mantissa + 4) / 10, scale := x.scale - 1 }

def isFiller (c : Char) : Bool := c.isDigit || c == '_'

/-- The least mantissa of a long number, one whose digits but the last come near to filling 64
bits. -/
def longMantissa : Nat := 18446744073709549060

/-- Whether an underscore next to the digits read so far is skipped. Behind the last place of a
short number it rounds like a zero instead. -/
def skipsUnderscore (x : Decimal) : Bool := x.scale < maxScale || longMantissa ≤ x.mantissa

/-- Continues behind the point. -/
def readFraction (x : Decimal) : List Char → Option Decimal
  | [] => some x
  | c :: cs =>
    if c = '_' ∧ x.skipsUnderscore then readFraction x cs
    else if !isFiller c then none
    else if c = '_' then if cs.all isFiller then some x else none
    else if x.scale < maxScale ∧ 10 * x.mantissa + digitValue c ≤ maxMantissa then
      readFraction
        { x with mantissa := 10 * x.mantissa + digitValue c, scale := x.scale + 1 } cs
    else if cs.all isFiller then roundBy x (digitValue c)
    else none

/-- Continues behind the first digit, before the point. -/
def readWhole (x : Decimal) : List Char → Option Decimal
  | [] => some x
  | c :: cs =>
    if c = '.' then readFraction x cs
    else if c = '_' then readWhole x cs
    else if c.isDigit ∧ 10 * x.mantissa + digitValue c ≤ maxMantissa then
      readWhole { x with mantissa := 10 * x.mantissa + digitValue c } cs
    else none

/-- The first character is a digit or a point with a digit behind it. -/
def readUnsigned (negative : Bool) : List Char → Option Decimal
  | [] => none
  | c :: cs =>
    if c.isDigit then readWhole ⟨negative, digitValue c, 0⟩ cs
    else if c = '.' ∧ (cs.head?.any Char.isDigit) then readFraction ⟨negative, 0, 0⟩ cs
    else none

def readPlain (cs : List Char) : Option Decimal :=
  match cs with
  | '-' :: rest => readUnsigned true rest
  | '+' :: rest => readUnsigned false rest
  | _ => readUnsigned false cs

/-- Divides by ten to the `n`; places beyond the last are dropped, the last of them rounding up
from five. -/
def shrink (x : Decimal) (n : Nat) : Option Decimal :=
  if maxScale < n then none
  else if x.scale + n ≤ maxScale then some { x with scale := x.scale + n }
  else
    let k := x.scale + n - maxScale
    some { x with mantissa := (x.mantissa + 5 * tenTo (k - 1)) / tenTo k, scale := maxScale }

/-- Multiplies by ten to the `n`, by moving the point where the digits allow it. -/
def grow (x : Decimal) (n : Nat) : Option Decimal :=
  if n ≤ x.scale then some { x with scale := x.scale - n }
  else if maxScale < n then none
  else do
    let y ← x.times? (ofNat (tenTo (min n 19)))
    if n ≤ 19 then some y else y.times? (ofNat (tenTo (n - 19)))

def exponentLimit : Nat := Nat.pow 2 32

def isExponentMark (c : Char) : Bool := c == 'e' || c == 'E'

def readScientific (cs : List Char) : Option Decimal :=
  match cs.dropWhile (!isExponentMark ·) with
  | [] => none
  | _ :: exponent => do
    let x ← readPlain (cs.takeWhile (!isExponentMark ·))
    match exponent with
    | '-' :: power => (natural? exponentLimit power).bind x.shrink
    | _ => (natural? exponentLimit exponent).bind x.grow

def read (cs : List Char) : Option Decimal :=
  (readPlain cs).or (readScientific cs)

end Solvency.Decimal
