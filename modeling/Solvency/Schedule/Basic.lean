import Solvency.Magnitude

/-! # Bracket schedules

A schedule weighs the value of a position piece by piece: what lies between two neighbouring
boundaries counts at the percentage of that bracket, each piece rounded down on its own. What lies
above the top boundary is governed by a policy.
-/
namespace Solvency
open Arithmetic

/-- Whole percentages from nothing to all. -/
abbrev Percent := Fin 101

structure Bracket where
  upTo : Nat
  percent : Percent
deriving DecidableEq

def Bracket.of? (upTo percent : Nat) : Option Bracket :=
  if h : percent < 101 then some ⟨upTo, percent, h⟩ else none

/-- The value of `width` at `percent`, rounded down. -/
def Percent.portion [Arithmetic] (percent : Percent) (width : Nat) : Nat :=
  keep (width * percent.val) / 100

inductive TopPolicy
  | capped
  | extended
deriving DecidableEq

namespace TopPolicy

def all : List TopPolicy := [capped, extended]

def name : TopPolicy → String
  | capped => "capped"
  | extended => "extend-last-ratio"

def ofName? (text : String) : Option TopPolicy := all.find? (·.name == text)

end TopPolicy

structure Schedule where
  brackets : List Bracket
  increasing : brackets.Pairwise fun a b => a.upTo < b.upTo

namespace Schedule

def empty : Schedule := ⟨[], .nil⟩

def ofBrackets? (brackets : List Bracket) : Option Schedule :=
  if h : brackets.Pairwise fun a b => a.upTo < b.upTo then some ⟨brackets, h⟩ else none

/-- Adds a bracket at the top. -/
def push? (s : Schedule) (b : Bracket) : Option Schedule :=
  if h : ∀ a ∈ s.brackets, a.upTo < b.upTo then
    some ⟨s.brackets ++ [b], List.pairwise_append.2 ⟨s.increasing, List.pairwise_singleton _ _,
      fun a ha _ hc => List.mem_singleton.1 hc ▸ h a ha⟩⟩
  else none

def isEmpty (s : Schedule) : Bool := s.brackets.isEmpty

def top? (s : Schedule) : Option Nat := s.brackets.getLast?.map (·.upTo)

/-- The weight `total` of a whole schedule, continued above its top at `percent`. Here nothing wraps
around: what has no word counts as the greatest one. -/
def beyondTop (policy : TopPolicy) (total excess : Nat) (percent : Percent) : Nat :=
  match policy with
  | .capped => total
  | .extended => saturate (total + saturate (excess * percent.val) / 100)

/-- Continues a walk that has weighed the value up to `last` as `total`, ending at `percent`. -/
def weighFrom [Arithmetic] (policy : TopPolicy) (value total last : Nat) (percent : Percent) :
    List Bracket → Nat
  | [] => beyondTop policy total (value - last) percent
  | b :: bs =>
    if value ≤ b.upTo then keep (total + b.percent.portion (value - last))
    else
      weighFrom policy value (keep (total + b.percent.portion (b.upTo - last))) b.upTo b.percent bs

def weigh [Arithmetic] (s : Schedule) (policy : TopPolicy) (value : Nat) : Nat :=
  weighFrom policy value 0 0 0 s.brackets

end Schedule
end Solvency
