import Solvency.Amount
import Solvency.Fault
import Solvency.Schedule.Basic
import Solvency.Text.Split

/-! # Reading bracket lists

A schedule is written as `[lower-upper:percent, ...]` in whole units of value. Only the upper
bounds are kept, scaled to the value units of the schedule; a lower bound has to be a number that
is not above its upper bound. The first bracket with a flaw is the one reported.
-/
namespace Solvency.Schedule
open Solvency.Text

def bound? (cs : List Char) : Option Nat :=
  (Amount.scaled? (String.ofList cs) 1).filter (· < wordLimit)

def percent? (cs : List Char) : Option Percent := do
  let n ← natural? 101 (trim cs)
  if h : n < 101 then some ⟨n, h⟩ else none

def orFlaw {α : Type} (flaw : BracketFlaw) (x : Option α) : Except BracketFlaw α :=
  x.elim (.error flaw) .ok

def readBracket (multiplier : Nat) (segment : List Char) : Except BracketFlaw Bracket :=
  match splitOn ':' segment with
  | [range, percent] =>
    match splitOn '-' range with
    | [lower, upper] => do
      let low ← orFlaw .lowerBound (bound? lower)
      let high ← orFlaw .upperBound (bound? upper)
      if high < low then throw .reversed
      let percent ← orFlaw .percent (percent? percent)
      if valueLimit ≤ high * multiplier then throw .overflow
      return ⟨high * multiplier, percent⟩
    | _ => throw .notRange
  | _ => throw .notPair

/-- Adds the bracket written in `segment` to the schedule of those before it. -/
def readNext (multiplier row : Nat) (s : Schedule) (segment : List Char) :
    Except Fault Schedule :=
  let text := trim segment
  let next := do
    let b ← readBracket multiplier text
    orFlaw .unordered (s.push? b)
  next.mapError (Fault.bracket row (String.ofList text))

/-- The list without its outer blanks and square brackets. -/
def listBody (text : String) : List Char :=
  trim (dropEndWhile (· == ']') ((trim text.toList).dropWhile (· == '[')))

def read (text : String) (multiplier row : Nat) : Except Fault Schedule :=
  match listBody text with
  | [] => .ok empty
  | body => (splitOn ',' body).foldlM (readNext multiplier row) empty

end Solvency.Schedule
