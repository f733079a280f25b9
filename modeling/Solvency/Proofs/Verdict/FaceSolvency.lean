import Solvency.Proofs.Schedule.FaceValue
import Solvency.Proofs.Verdict.Rules

/-! # Valid accounts are solvent at face value

Capacity is never more than the face value of what is pledged, and what is pledged is never more
than the equity. An account whose debts stay within its capacity therefore owns at least what it
owes, before any weighing, if only nothing is lost of what it owes.
-/
namespace Solvency.Market
open Arithmetic

section
variable [Arithmetic]

theorem credit_le_equity {m : Market} {h : Holding} (policy : TopPolicy) (ha : m.Admits h) :
    m.credit policy h ≤ m.faceValue h.symbol h.position.equity := by
  obtain ⟨l, hl⟩ := ha.listed
  rw [credit_eq hl, faceValue_eq hl, Nat.mul_comm]
  exact (l.capacity_le policy h.position.pledge).trans (Nat.mul_le_mul_left _ ha.covered)

theorem totalCredit_le_equityAtFace {m : Market} {holdings : List Holding} (policy : TopPolicy)
    (h : ∀ x ∈ active holdings, m.Admits x) :
    m.totalCredit policy holdings ≤ m.equityAtFace holdings :=
  List.sum_le_sum fun x hx => credit_le_equity policy (h x hx)

theorem debtAtFace_le_of_judge {m : Market} {policy : TopPolicy} {holdings : List Holding}
    (h : m.judge policy holdings = .ok .valid) (hd : Whole (m.debtAtFace holdings)) :
    m.debtAtFace holdings ≤ m.totalCredit policy holdings := by
  calc
    m.debtAtFace holdings = keep (m.debtAtFace holdings) := hd.symm
    _ ≤ keep (m.totalCredit policy holdings) := (judge_eq_valid.mp h).2
    _ ≤ m.totalCredit policy holdings := keep_le _

/-- The debts of a valid account are worth no more than its equities, and each active holding was
credited with no more than the face value of its pledges, itself within that of its equity. -/
theorem face_solvent_of_judge_valid {m : Market} {policy : TopPolicy} {holdings : List Holding}
    (h : m.judge policy holdings = .ok .valid) (hd : Whole (m.debtAtFace holdings)) :
    m.debtAtFace holdings ≤ m.equityAtFace holdings ∧
    ∀ x ∈ active holdings, ∃ l, m.listing x.symbol = .ok l ∧
      l.capacity policy x.position.pledge ≤ l.quote.price * x.position.pledge.total ∧
      l.quote.price * x.position.pledge.total ≤ l.quote.price * x.position.equity := by
  have ha := admits_of_judge h (by decide)
  refine ⟨(debtAtFace_le_of_judge h hd).trans (totalCredit_le_equityAtFace policy ha), ?_⟩
  intro x hx
  obtain ⟨⟨l, hl⟩, hc⟩ := ha x hx
  exact ⟨l, hl, l.capacity_le policy x.position.pledge, Nat.mul_le_mul_left _ hc⟩

end

/-- Two tokens: one whose pledges pass their top bracket, one without brackets. -/
def pairMarket : Market where
  listings := [
    ⟨⟨"btc", 7, .eightPlaces⟩,
      ⟨⟨[⟨100, 90, by decide⟩, ⟨200, 50, by decide⟩], by decide⟩,
        ⟨[⟨50, Fin.last 100⟩], by decide⟩, .empty⟩⟩,
    ⟨⟨"shib", 3, .twoPlaces⟩, ⟨.empty, .empty, .empty⟩⟩]
  distinct := by decide

/-- The second holding is idle, and its token is not listed. -/
def pairHoldings : List Holding := [
  ⟨"btc", 8, ⟨60, 30, ⟨40, 10, 5⟩⟩⟩, ⟨"doge", 8, ⟨0, 0, ⟨1, 1, 1⟩⟩⟩, ⟨"shib", 2, ⟨9, 2, ⟨4, 2, 1⟩⟩⟩]

theorem pairHoldings_face_solvent :
    pairMarket.judge .extended pairHoldings = .ok .valid ∧
    Whole (pairMarket.debtAtFace pairHoldings) ∧
    pairMarket.debtAtFace pairHoldings ≤ pairMarket.equityAtFace pairHoldings ∧
    ∀ x ∈ active pairHoldings, ∃ l, pairMarket.listing x.symbol = .ok l ∧
      l.capacity .extended x.position.pledge ≤ l.quote.price * x.position.pledge.total ∧
      l.quote.price * x.position.pledge.total ≤ l.quote.price * x.position.equity :=
  ⟨rfl, rfl, face_solvent_of_judge_valid rfl rfl⟩

end Solvency.Market
