import Solvency.Account.Drawn
import Solvency.Proofs.Account.Fits
import Solvency.Proofs.Draws
import Solvency.Proofs.Ratio

/-! # What every drawn position owns and pledges

Whatever words are drawn, an equity is a word within its ceiling. Pledges that are rounded up pass
it, and pledges that are rounded down stay within it.
-/
namespace Solvency

/-- Constants by which a drawn account comes by the standing it was drawn for. -/
structure Settings.Sound (s : Settings) : Prop where
  tokens_ne_nil : s.tokens ≠ []
  overshoot_pos : 0 < s.overshoot
  inflation_pos : 0 < s.inflation.denominator
  inflates : s.inflation.denominator ≤ s.inflation.numerator
  shrinkage_pos : 0 < s.shrinkage.denominator
  shrinks : s.shrinkage.numerator ≤ s.shrinkage.denominator

theorem Schedule.exists_top {s : Schedule} (h : s.isEmpty = false) : ∃ top, s.top? = some top := by
  have hne : s.brackets ≠ [] := List.isEmpty_eq_false_iff.mp h
  exact ⟨_, by rw [top?, List.getLast?_eq_some_getLast hne, Option.map_some]⟩

namespace Account

theorem share_on_le (equity : Nat) (divisors : PerFacility Nat) (facility : Facility) :
    (Pledge.share equity divisors).on facility ≤ equity := by
  rw [Pledge.share, PerFacility.on_map]
  exact Nat.div_le_self _ _

theorem total_share_le (equity : Nat) : (Pledge.share equity solventDivisors).total ≤ equity := by
  show equity / 2 + equity / 4 + equity / 8 ≤ equity
  omega

theorem shareUp_on_le {equity : Nat} (h : 0 < equity) (facility : Facility) :
    (Pledge.shareUp equity excessiveDivisors).on facility ≤ equity := by
  rw [Pledge.shareUp, PerFacility.on_map]
  cases facility with
  | vipLoan =>
    show (equity + 2 - 1) / 2 ≤ equity
    omega
  | crossMargin =>
    show (equity + 4 - 1) / 4 ≤ equity
    omega
  | portfolioMargin =>
    show (equity + 2 - 1) / 2 ≤ equity
    omega

/-- Half, a quarter and a half of the equity are a quarter more than it. Rounding them up adds less
than two units, whatever is left over by four. -/
theorem total_shareUp_bounds (equity : Nat) :
    5 * equity ≤ 4 * (Pledge.shareUp equity excessiveDivisors).total ∧
      4 * (Pledge.shareUp equity excessiveDivisors).total ≤ 5 * equity + 7 := by
  have ht : (Pledge.shareUp equity excessiveDivisors).total =
      (equity + 2 - 1) / 2 + (equity + 4 - 1) / 4 + (equity + 2 - 1) / 2 := rfl
  rw [ht]
  omega

/-- A position that pledges shares of its equity, rounded down. -/
theorem fits_share {equity debt : Nat} (he : equity < wordLimit) (hd : debt < wordLimit) :
    Position.Fits ⟨equity, debt, .share equity solventDivisors⟩ where
  equity_lt := he
  debt_lt := hd
  pledge_lt facility := (share_on_le equity solventDivisors facility).trans_lt he

theorem drawEquity_mem {low high : Nat} (hl : low < wordLimit) (hh : high < wordLimit) :
    Ensures (drawEquity low high) fun equity => low ≤ equity ∧ equity ≤ max high low := by
  refine Ensures.draw ?_
  intro d
  exact Draws.between_mem (Nat.le_max_right high low) (Nat.max_lt.mpr ⟨hh, hl⟩) d

/-- An equity that may be nothing. -/
theorem drawEquity_le {high : Nat} (hh : high < wordLimit) :
    Ensures (drawEquity 0 high) fun equity => equity ≤ high :=
  (drawEquity_mem (by decide) hh).mono fun _ h => h.2.trans (Nat.max_le.mpr ⟨le_rfl, Nat.zero_le _⟩)

/-- More is pledged than owned. -/
structure Overpledged (p : Position) : Prop where
  fits : p.Fits
  equity_pos : 0 < p.equity
  exceeded : p.equity < p.pledge.total

/-- Within the ceiling at least one unit is owned. Half of it is owed, and a quarter more than it is
pledged. -/
structure Overcommitted (settings : Settings) (l : Listing) (p : Position) : Prop where
  fits : p.Fits
  equity_pos : 1 ≤ p.equity
  equity_le : p.equity ≤ max 1 (settings.equityCeiling * l.quote.scaling.unitScale)
  debt_eq : p.debt = p.equity / 2
  le_pledged : 5 * p.equity ≤ 4 * p.pledge.total
  pledged_le : 4 * p.pledge.total ≤ 5 * p.equity + 7

theorem Overcommitted.overpledged {settings : Settings} {l : Listing} {p : Position}
    (h : Overcommitted settings l p) : Overpledged p where
  fits := h.fits
  equity_pos := h.equity_pos
  exceeded := by
    have hpos := h.equity_pos
    have hle := h.le_pledged
    omega

theorem drawOverpledged_ensures (settings : Settings) (l : Listing) :
    Ensures (drawOverpledged settings l) (Overcommitted settings l) := by
  refine Ensures.bind (Ensures.lift _) ?_
  intro ceiling hc
  obtain ⟨hceiling, rfl⟩ := narrow_eq_ok.mp hc
  refine Ensures.bind (drawEquity_mem (by decide) hceiling) ?_
  intro equity he
  have hlt : equity < wordLimit := he.2.trans_lt (Nat.max_lt.mpr ⟨hceiling, by decide⟩)
  obtain ⟨hle, hge⟩ := total_shareUp_bounds equity
  refine Ensures.pure ⟨⟨hlt, ?_, fun facility => ?_⟩, he.1, ?_, rfl, hle, hge⟩
  · exact (Nat.div_le_self equity 2).trans_lt hlt
  · exact (shareUp_on_le he.1 facility).trans_lt hlt
  · rw [max_comm]
    exact he.2

end Account
end Solvency
