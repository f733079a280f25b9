import Solvency.Proofs.Schedule.FaceValue
import Solvency.Proofs.Verdict.Rules

/-! # How an account comes by its standing

A first token that is overpledged settles the verdict. Otherwise idle positions, though passed over,
may as well be counted, since nothing is owed in them and nothing pledged; so the totals are sums
over all holdings.
-/
namespace Solvency
open Arithmetic
variable {m : Market} {policy : TopPolicy} {holdings : List Holding}

theorem Position.isIdle_iff {p : Position} : p.isIdle = true ↔ p.equity = 0 ∧ p.debt = 0 := by
  simp [isIdle]

theorem sum_active {f : Holding → Nat} (hf : ∀ h ∈ holdings, h.position.isIdle = true → f h = 0) :
    ((active holdings).map f).sum = (holdings.map f).sum := by
  induction holdings with
  | nil => rfl
  | cons h hs ih =>
    have hrest := ih fun x hx => hf x (List.mem_cons_of_mem h hx)
    by_cases hi : h.position.isIdle = true
    · rw [active_cons_idle hi, hrest, List.map_cons, List.sum_cons, hf h List.mem_cons_self hi,
        Nat.zero_add]
    · rw [active_cons (Bool.not_eq_true _ ▸ hi), List.map_cons, List.map_cons, List.sum_cons,
        List.sum_cons, hrest]

namespace Market

theorem debtAtFace_eq_sum :
    m.debtAtFace holdings = (holdings.map fun h => m.faceValue h.symbol h.position.debt).sum := by
  refine sum_active ?_
  intro h _ hi
  unfold faceValue
  cases m.find? h.symbol with
  | none => rfl
  | some l =>
    rw [(Position.isIdle_iff.mp hi).2]
    exact Nat.zero_mul _

variable [Arithmetic]

theorem credit_eq_zero {h : Holding} (he : h.position.equity = 0)
    (hc : h.position.pledge.total ≤ h.position.equity) : m.credit policy h = 0 := by
  rw [he] at hc
  unfold credit
  cases m.find? h.symbol with
  | none => rfl
  | some l =>
    have hle := l.capacity_le policy h.position.pledge
    rw [Nat.le_zero.mp hc, Nat.mul_zero] at hle
    exact Nat.le_zero.mp hle

theorem totalCredit_eq_sum (hc : ∀ h ∈ holdings, h.position.pledge.total ≤ h.position.equity) :
    m.totalCredit policy holdings = (holdings.map (m.credit policy)).sum := by
  refine sum_active ?_
  intro h hh hi
  exact credit_eq_zero (Position.isIdle_iff.mp hi).1 (hc h hh)

theorem judge_overpledged {h : Holding} (hi : h.position.isIdle = false)
    (hc : h.position.equity < h.position.pledge.total) (hs : List Holding) :
    m.judge policy (h :: hs) = .ok (.overpledged h.symbol) := by
  rw [judge_eq, active_cons hi, List.findSome?_cons, bar?, if_pos hc, Option.getD_some]

theorem judge_valid (ha : ∀ h ∈ holdings, m.Admits h)
    (hd : keep (holdings.map fun h => m.faceValue h.symbol h.position.debt).sum ≤
      keep (holdings.map (m.credit policy)).sum) :
    m.judge policy holdings = .ok .valid := by
  rw [judge_of_admits fun x hx => ha x (List.mem_of_mem_filter hx), debtAtFace_eq_sum,
    totalCredit_eq_sum fun h hh => (ha h hh).covered, Verdict.ofTotals, if_neg (Nat.not_lt.mpr hd)]

/-- Every holding owes more than is credited for it, there is one, and nothing is lost of what they
owe together. -/
theorem judge_overdrawn (hne : holdings ≠ []) (ha : ∀ h ∈ holdings, m.Admits h)
    (hd : ∀ h ∈ holdings, m.credit policy h < m.faceValue h.symbol h.position.debt)
    (hw : Whole (m.debtAtFace holdings)) :
    m.judge policy holdings =
      .ok (.overdrawn (m.debtAtFace holdings) (keep (m.totalCredit policy holdings))) := by
  have hlt := List.sum_lt_sum_of_ne_nil hne (m.credit policy)
    (fun h => m.faceValue h.symbol h.position.debt) hd
  rw [← debtAtFace_eq_sum, ← totalCredit_eq_sum fun h hh => (ha h hh).covered] at hlt
  have hkept := (keep_le (m.totalCredit policy holdings)).trans_lt hlt
  rw [judge_of_admits fun x hx => ha x (List.mem_of_mem_filter hx), hw, Verdict.ofTotals,
    if_pos hkept]

end Market
end Solvency
