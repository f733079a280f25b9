import Solvency.Proofs.Market.Rescaled
import Solvency.Proofs.Verdict.Standing

/-! # Verdicts in another scaling

Quantities that are counted in other units keep their order and are nothing in both units or in
neither. Priced to match, they are worth the same. Two scans of the same positions in two scalings
therefore go in step and end with the same verdict and the same totals.
-/
namespace Solvency

/-- The same position in two counts, of `a` and of `b` units to the whole. -/
structure Position.Proportional (a b : Nat) (p q : Position) : Prop where
  equity : p.equity * b = q.equity * a
  debt : p.debt * b = q.debt * a
  pledge : ∀ facility, p.pledge.on facility * b = q.pledge.on facility * a

namespace Position.Proportional
variable {a b : Nat} {p q : Position}

theorem total (h : Proportional a b p q) : p.pledge.total * b = q.pledge.total * a := by
  have hv : p.pledge.vipLoan * b = q.pledge.vipLoan * a := h.pledge .vipLoan
  have hc : p.pledge.crossMargin * b = q.pledge.crossMargin * a := h.pledge .crossMargin
  have hp : p.pledge.portfolioMargin * b = q.pledge.portfolioMargin * a := h.pledge .portfolioMargin
  simp only [Pledge.total, PerFacility.sum, Nat.add_mul, hv, hc, hp]

theorem isIdle_eq (h : Proportional a b p q) (ha : 0 < a) (hb : 0 < b) : p.isIdle = q.isIdle := by
  have hzero : ∀ {u v : Nat}, u * b = v * a → (u = 0 ↔ v = 0) := by
    intro u v huv
    constructor
    · rintro rfl
      rw [Nat.zero_mul] at huv
      exact (Nat.mul_eq_zero.mp huv.symm).resolve_right ha.ne'
    · rintro rfl
      rw [Nat.zero_mul] at huv
      exact (Nat.mul_eq_zero.mp huv).resolve_right hb.ne'
  rw [Bool.eq_iff_iff, isIdle_iff, isIdle_iff, hzero h.equity, hzero h.debt]

theorem exceeds_iff (h : Proportional a b p q) (ha : 0 < a) (hb : 0 < b) :
    p.equity < p.pledge.total ↔ q.equity < q.pledge.total := by
  rw [← Nat.mul_lt_mul_right hb, h.equity, h.total, Nat.mul_lt_mul_right ha]

end Position.Proportional

namespace Listing.SameAsset
variable [Arithmetic] {l k : Listing} {u v : Nat}

theorem value_eq (h : l.SameAsset k)
    (huv : u * tenTo k.quote.scaling.precision = v * tenTo l.quote.scaling.precision) :
    l.quote.value u = k.quote.value v := by
  have hworth := h.worth_eq
  have hl := tenTo_pos l.quote.scaling.precision
  have hk := tenTo_pos k.quote.scaling.precision
  generalize tenTo l.quote.scaling.precision = a at *
  generalize tenTo k.quote.scaling.precision = b at *
  refine congrArg Arithmetic.keep (Nat.eq_of_mul_eq_mul_right (Nat.mul_pos hl hk) ?_)
  calc
    u * l.quote.price * (a * b) = u * b * (a * l.quote.price) := by ring
    _ = v * a * (b * k.quote.price) := by rw [huv, hworth]
    _ = v * k.quote.price * (a * b) := by ring

theorem capacity_eq (h : l.SameAsset k) (policy : TopPolicy) {p q : Pledge}
    (hpq : ∀ facility, p.on facility * tenTo k.quote.scaling.precision =
      q.on facility * tenTo l.quote.scaling.precision) :
    l.capacity policy p = k.capacity policy q := by
  have hworth : ∀ facility, l.worth policy facility (p.on facility) =
      k.worth policy facility (q.on facility) := by
    intro facility
    rw [worth, worth, h.schedule_eq, h.value_eq (hpq facility)]
  simp only [capacity, hworth]

end Listing.SameAsset

namespace Market
variable {m n : Market} {policy : TopPolicy} {hs gs : List Holding}

/-- The same holding in two markets, each in the scaling of its own listing. -/
def SameHolding (m n : Market) (h g : Holding) : Prop :=
  h.symbol = g.symbol ∧ ∃ l k, m.listing h.symbol = .ok l ∧ n.listing g.symbol = .ok k ∧
    l.SameAsset k ∧
    h.position.Proportional (tenTo l.quote.scaling.precision) (tenTo k.quote.scaling.precision)
      g.position

variable [Arithmetic]

theorem judgeFrom_eq_judgeFrom (h : List.Forall₂ (SameHolding m n) hs gs) (debt capacity : Nat) :
    m.judgeFrom policy debt capacity hs = n.judgeFrom policy debt capacity gs := by
  induction h generalizing debt capacity with
  | nil => rfl
  | @cons h g hs gs hx _ ih =>
    obtain ⟨hsymbol, l, k, hl, hk, hsame, hp⟩ := hx
    have ha := tenTo_pos l.quote.scaling.precision
    have hb := tenTo_pos k.quote.scaling.precision
    rw [judgeFrom, judgeFrom, hp.isIdle_eq ha hb, hl, hk, ok_bind, ok_bind, ih, ih, hsymbol,
      hsame.value_eq hp.debt, hsame.capacity_eq policy hp.pledge]
    simp only [hp.exceeds_iff ha hb]

theorem judge_eq_judge (h : List.Forall₂ (SameHolding m n) hs gs) :
    m.judge policy hs = n.judge policy gs :=
  judgeFrom_eq_judgeFrom h 0 0

end Market
end Solvency
