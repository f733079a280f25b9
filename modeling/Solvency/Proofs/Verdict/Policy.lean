import Solvency.Proofs.Schedule.Order
import Solvency.Proofs.Verdict.FaceSolvency

/-! # Verdicts under the two policies

What ends the scan of an account early does not depend on the policy, and neither do its debts. Only
the credit for its pledges does, and that is never less under the extended policy. The extended
policy may thus clear an account that the capped one finds overdrawn, and changes nothing else.
-/
namespace Solvency.Market
open Arithmetic

/-- Nothing is lost of the sums by which an account is judged. -/
structure SumsWhole [Arithmetic] (m : Market) (policy : TopPolicy) (holdings : List Holding) :
    Prop where
  debts : Whole (m.debtAtFace holdings)
  worths : ∀ h ∈ active holdings, ∀ l, m.listing h.symbol = .ok l →
    Whole (l.worths policy h.position.pledge)
  credits : Whole (m.totalCredit policy holdings)

section
variable [Arithmetic] {m : Market} {holdings : List Holding}

theorem totalCredit_capped_le (hm : m.InRange) (hw : m.SumsWhole .extended holdings) :
    m.totalCredit .capped holdings ≤ m.totalCredit .extended holdings := by
  apply List.sum_le_sum
  intro h hh
  unfold credit
  cases hf : m.find? h.symbol with
  | none => exact le_rfl
  | some l =>
    have hworths := hw.worths h hh l (listing_eq_ok.mpr hf)
    exact Listing.capacity_capped_le (hm l (List.mem_of_find?_eq_some hf)) hworths

/-- The policy has a say in a verdict by the totals only. -/
theorem judge_policies (m : Market) (holdings : List Holding) :
    (∃ fault, ∀ policy, m.judge policy holdings = .error fault) ∨
      (∃ token, ∀ policy, m.judge policy holdings = .ok (.overpledged token)) ∨
      (∀ x ∈ active holdings, m.Admits x) ∧ ∀ policy, m.judge policy holdings =
        .ok (.ofTotals (keep (m.debtAtFace holdings)) (keep (m.totalCredit policy holdings))) := by
  simp only [judge_eq]
  cases hs : (active holdings).findSome? m.bar? with
  | none => exact Or.inr (Or.inr ⟨findSome?_bar?_eq_none.mp hs, fun _ => rfl⟩)
  | some r =>
    obtain ⟨x, _, hb⟩ := List.exists_of_findSome?_eq_some hs
    rcases bar?_eq_some hb with ⟨_, rfl⟩ | ⟨_, rfl⟩
    · exact Or.inr (Or.inl ⟨x.symbol, fun _ => rfl⟩)
    · exact Or.inl ⟨.unlistedToken x.symbol, fun _ => rfl⟩

/-- Going from the capped policy to the extended one leaves faults, overpledged tokens and the
debts as they are and does not lessen the credit, so that the only change it can make is from
overdrawn to valid. Where there are totals they are taken to be whole. -/
theorem judge_extended_of_capped (hm : m.InRange)
    (hw : (∀ x ∈ active holdings, m.Admits x) → m.SumsWhole .extended holdings) :
    ((∃ fault, ∀ policy, m.judge policy holdings = .error fault) ∨
      (∃ token, ∀ policy, m.judge policy holdings = .ok (.overpledged token)) ∨
      (∀ policy, m.judge policy holdings =
        .ok (.ofTotals (m.debtAtFace holdings) (m.totalCredit policy holdings))) ∧
      m.totalCredit .capped holdings ≤ m.totalCredit .extended holdings) ∧
    (m.judge .capped holdings = .ok .valid → m.judge .extended holdings = .ok .valid) ∧
    ∀ debt capacity, m.judge .extended holdings = .ok (.overdrawn debt capacity) →
      ∃ less ≤ capacity, m.judge .capped holdings = .ok (.overdrawn debt less) := by
  refine ⟨?_, ?_, ?_⟩
  · rcases judge_policies m holdings with hf | ht | ⟨ha, hv⟩
    · exact Or.inl hf
    · exact Or.inr (Or.inl ht)
    · have hle := totalCredit_capped_le hm (hw ha)
      refine Or.inr (Or.inr ⟨fun policy => ?_, hle⟩)
      have hcredits : Whole (m.totalCredit policy holdings) := by
        cases policy with
        | capped => exact (hw ha).credits.of_le hle
        | extended => exact (hw ha).credits
      rw [hv policy, (hw ha).debts, hcredits]
  · intro hv
    obtain ⟨ha, hd⟩ := judge_eq_valid.mp hv
    have hkept := (hw ha).credits.keep_mono (totalCredit_capped_le hm (hw ha))
    exact judge_eq_valid.mpr ⟨ha, hd.trans hkept⟩
  · intro debt capacity ho
    obtain ⟨ha, hd, rfl, rfl⟩ := judge_eq_overdrawn.mp ho
    have hkept := (hw ha).credits.keep_mono (totalCredit_capped_le hm (hw ha))
    exact ⟨_, hkept, judge_eq_overdrawn.mpr ⟨ha, hkept.trans_lt hd, rfl, rfl⟩⟩

end

theorem pairMarket_inRange : pairMarket.InRange := by
  intro l hl facility
  unfold Schedule.InRange
  rcases List.mem_pair.mp hl with rfl | rfl
  all_goals cases facility <;> decide

/-- The pledge of the first holding passes the top bracket of its token. -/
def toppedHoldings : List Holding := [
  ⟨"btc", 8, ⟨90, 45, ⟨90, 0, 0⟩⟩⟩, ⟨"doge", 8, ⟨0, 0, ⟨1, 1, 1⟩⟩⟩, ⟨"shib", 2, ⟨9, 2, ⟨4, 2, 1⟩⟩⟩]

theorem toppedHoldings_sumsWhole : pairMarket.SumsWhole .extended toppedHoldings where
  debts := rfl
  worths := by
    intro h hh l hl
    have hactive : h ∈ [toppedHoldings[0], toppedHoldings[2]] := hh
    rcases List.mem_pair.mp hactive with rfl | rfl
    all_goals
      cases hl
      rfl
  credits := rfl

/-- An account that is overdrawn under the capped policy and valid under the extended one. -/
theorem toppedHoldings_cleared :
    pairMarket.InRange ∧ pairMarket.SumsWhole .extended toppedHoldings ∧
    pairMarket.judge .capped toppedHoldings = .ok (.overdrawn 321 140) ∧
    pairMarket.judge .extended toppedHoldings = .ok .valid ∧
    ((∃ fault, ∀ policy, pairMarket.judge policy toppedHoldings = .error fault) ∨
      (∃ token, ∀ policy, pairMarket.judge policy toppedHoldings = .ok (.overpledged token)) ∨
      (∀ policy, pairMarket.judge policy toppedHoldings = .ok (.ofTotals
        (pairMarket.debtAtFace toppedHoldings) (pairMarket.totalCredit policy toppedHoldings))) ∧
      pairMarket.totalCredit .capped toppedHoldings ≤
        pairMarket.totalCredit .extended toppedHoldings) ∧
    (pairMarket.judge .capped toppedHoldings = .ok .valid →
      pairMarket.judge .extended toppedHoldings = .ok .valid) ∧
    ∀ debt capacity, pairMarket.judge .extended toppedHoldings = .ok (.overdrawn debt capacity) →
      ∃ less ≤ capacity, pairMarket.judge .capped toppedHoldings = .ok (.overdrawn debt less) :=
  ⟨pairMarket_inRange, toppedHoldings_sumsWhole, rfl, rfl,
    judge_extended_of_capped pairMarket_inRange fun _ => toppedHoldings_sumsWhole⟩

end Solvency.Market
