import Solvency.Proofs.Market.Steady
import Solvency.Proofs.Verdict.FaceSolvency
import Solvency.Proofs.Verdict.Standing

/-! # Improved accounts

A holding is improved when less is owed in it or more pledged, as long as the pledges stay within
the equity. A position may fall idle in this way, but none is taken up: an active holding has been
active before. Debts do not grow and credits do not shrink, so that a valid account stays valid as
long as nothing is lost of its debts before and of its credits after. Where a product overflows it
may not.
-/
namespace Solvency
open Arithmetic

/-- Owing no more and pledging no less, on the same equity in the same token. -/
structure Holding.Improves (h k : Holding) : Prop where
  symbol_eq : k.symbol = h.symbol
  equity_eq : k.position.equity = h.position.equity
  debt_le : k.position.debt ≤ h.position.debt
  pledge_le : ∀ facility, h.position.pledge.on facility ≤ k.position.pledge.on facility
  covered : k.position.pledge.total ≤ k.position.equity

variable {h k : Holding}

theorem Holding.Improves.covered_before (hi : h.Improves k) :
    h.position.pledge.total ≤ h.position.equity := by
  rw [← hi.equity_eq]
  exact (PerFacility.sum_mono hi.pledge_le).trans hi.covered

theorem Holding.Improves.isIdle (hi : h.Improves k) (hh : h.position.isIdle = true) :
    k.position.isIdle = true := by
  obtain ⟨he, hd⟩ := Position.isIdle_iff.mp hh
  have hle := hi.debt_le
  rw [hd] at hle
  exact Position.isIdle_iff.mpr ⟨hi.equity_eq.trans he, Nat.le_zero.mp hle⟩

namespace Market
variable {m : Market} {policy : TopPolicy} {holdings improved : List Holding}

/-- Each capacity of the account is computed without overflow, and nothing is lost of their sum. -/
structure CreditsWhole [Arithmetic] (m : Market) (policy : TopPolicy) (holdings : List Holding) :
    Prop where
  capacities : ∀ h ∈ active holdings, ∀ l, m.listing h.symbol = .ok l →
    (l.capacity? policy h.position.pledge).isSome
  credits : Whole (m.totalCredit policy holdings)

theorem admits_of_improves (hi : h.Improves k) (ha : m.Admits h) : m.Admits k where
  listed := hi.symbol_eq ▸ ha.listed
  covered := hi.covered

theorem debt_le_of_improves (hi : h.Improves k) :
    m.faceValue k.symbol k.position.debt ≤ m.faceValue h.symbol h.position.debt := by
  unfold faceValue
  rw [hi.symbol_eq]
  cases m.find? h.symbol with
  | none => exact le_rfl
  | some l => exact Nat.mul_le_mul_right l.quote.price hi.debt_le

theorem admits_of_improved (hi : List.Forall₂ Holding.Improves holdings improved)
    (ha : ∀ x ∈ active holdings, m.Admits x) : ∀ y ∈ active improved, m.Admits y := by
  intro y hy
  obtain ⟨hmem, hactive⟩ := mem_active.mp hy
  obtain ⟨x, hx, hxy⟩ := exists_of_forall₂ hi hmem
  refine admits_of_improves hxy (ha x (mem_active.mpr ⟨hx, ?_⟩))
  by_contra hidle
  rw [Bool.not_eq_false] at hidle
  rw [hxy.isIdle hidle] at hactive
  cases hactive

theorem debtAtFace_le_of_improved (hi : List.Forall₂ Holding.Improves holdings improved) :
    m.debtAtFace improved ≤ m.debtAtFace holdings := by
  rw [debtAtFace_eq_sum, debtAtFace_eq_sum]
  exact sum_le_sum_of_forall₂ (fun _ _ hxy => debt_le_of_improves hxy) hi.flip

section
variable [Arithmetic]

/-- Without equity nothing is pledged and nothing credited, before and after. -/
theorem credit_le_of_improves (hc : m.CreditsWhole policy improved) (hk : k ∈ improved)
    (hi : h.Improves k) : m.credit policy h ≤ m.credit policy k := by
  cases hidle : k.position.isIdle with
  | true =>
    have he := hi.equity_eq.symm.trans (Position.isIdle_iff.mp hidle).1
    rw [credit_eq_zero he hi.covered_before]
    exact Nat.zero_le _
  | false =>
    have hcapacity := hc.capacities k (mem_active.mpr ⟨hk, hidle⟩)
    unfold credit
    rw [hi.symbol_eq] at hcapacity ⊢
    cases hf : m.find? h.symbol with
    | none => exact le_rfl
    | some l =>
      obtain ⟨_, hsome⟩ := Option.isSome_iff_exists.mp (hcapacity l (listing_eq_ok.mpr hf))
      exact Listing.capacity_mono hsome hi.pledge_le

theorem totalCredit_le_of_improved (hc : m.CreditsWhole policy improved)
    (hi : List.Forall₂ Holding.Improves holdings improved) :
    m.totalCredit policy holdings ≤ m.totalCredit policy improved := by
  have hbefore : ∀ x ∈ holdings, x.position.pledge.total ≤ x.position.equity := by
    intro x hx
    obtain ⟨y, _, hxy⟩ := exists_of_forall₂ hi.flip hx
    exact hxy.covered_before
  have hafter : ∀ y ∈ improved, y.position.pledge.total ≤ y.position.equity := by
    intro y hy
    obtain ⟨x, _, hxy⟩ := exists_of_forall₂ hi hy
    exact hxy.covered
  have hmem : List.Forall₂ (fun y x => y ∈ improved ∧ flip Holding.Improves y x)
      improved holdings :=
    (List.forall₂_and_left _ _).mpr ⟨fun _ hy => hy, hi.flip⟩
  rw [totalCredit_eq_sum hbefore, totalCredit_eq_sum hafter]
  exact sum_le_sum_of_forall₂ (fun _ _ hxy => credit_le_of_improves hc hxy.1 hxy.2) hmem.flip

end

/-- A debt without equity behind it, carried by the pledges of another token. -/
def carriedHoldings : List Holding := [
  ⟨"shib", 2, ⟨0, 3, ⟨0, 0, 0⟩⟩⟩, ⟨"btc", 8, ⟨60, 26, ⟨40, 2, 3⟩⟩⟩]

/-- The debt without equity is paid off, and the pledges pass a bracket. -/
def relievedHoldings : List Holding := [
  ⟨"shib", 2, ⟨0, 0, ⟨0, 0, 0⟩⟩⟩, ⟨"btc", 8, ⟨60, 26, ⟨47, 10, 3⟩⟩⟩]

/-- One bracket up to the greatest value. -/
def brimfulMarket : Market where
  listings := [⟨⟨"btc", wordLimit - 1, .eightPlaces⟩,
    ⟨⟨[⟨valueLimit - 1, Fin.last 100⟩], by decide⟩, .empty, .empty⟩⟩]
  distinct := by decide

/-- A debt of one unit behind a pledge of `units`. -/
def pledging (units : Nat) : Holding := ⟨"btc", 8, ⟨wordLimit - 1, 1, ⟨units, 0, 0⟩⟩⟩

end Market
end Solvency
