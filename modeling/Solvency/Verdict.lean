import Solvency.Account

/-! # Verdicts

The rules by which the platform judges an account. Idle positions are passed over. The first
token that is overpledged decides at once; otherwise all debts at face value are held against the
capacity of all pledges.
-/
namespace Solvency

inductive Verdict
  | valid
  | overpledged (token : String)
  | overdrawn (debt capacity : Nat)
deriving DecidableEq

namespace Verdict

def standing : Verdict → Standing
  | valid => .valid
  | overpledged _ => .overpledged
  | overdrawn _ _ => .overdrawn

/-- The verdict on an account by its totals. -/
def ofTotals (debt capacity : Nat) : Verdict :=
  if capacity < debt then overdrawn debt capacity else valid

end Verdict

namespace Market
open Arithmetic

/-- Judges the remaining holdings, those before them having the given totals. -/
def judgeFrom [Arithmetic] (m : Market) (policy : TopPolicy) (debt capacity : Nat) :
    List Holding → Except Fault Verdict
  | [] => .ok (Verdict.ofTotals debt capacity)
  | h :: hs =>
    if h.position.isIdle then m.judgeFrom policy debt capacity hs
    else if h.position.equity < h.position.pledge.total then .ok (.overpledged h.symbol)
    else do
      let l ← m.listing h.symbol
      m.judgeFrom policy (keep (debt + l.quote.value h.position.debt))
        (keep (capacity + l.capacity policy h.position.pledge)) hs

def judge [Arithmetic] (m : Market) (policy : TopPolicy) (holdings : List Holding) :
    Except Fault Verdict :=
  m.judgeFrom policy 0 0 holdings

end Market
end Solvency
