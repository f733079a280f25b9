import Solvency.Pledge
import Solvency.Proofs.Ratio

/-! # Shares of an equity

A share is less than one unit away from the exact part of the equity, below it if it is rounded down
and above it if it is rounded up. Three shares are therefore less than three units away from the
part that they make up together. Parts of no more than the whole stay within the equity when they
are rounded down, and parts of more than the whole pass it when they are rounded up, however small
the equity is.
-/
namespace Solvency

/-- Units that fall short of an exact amount by less than some slack. -/
structure ShortBy (slack units : Nat) (exact : ℚ) : Prop where
  le : (units : ℚ) ≤ exact
  lt : exact < units + slack

/-- Units that pass an exact amount by less than some slack, or meet it. -/
structure OverBy (slack units : Nat) (exact : ℚ) : Prop where
  le : exact ≤ units
  lt : (units : ℚ) < exact + slack

variable {slack slack' units units' : Nat} {exact exact' : ℚ}

theorem ShortBy.add (h : ShortBy slack units exact) (h' : ShortBy slack' units' exact') :
    ShortBy (slack + slack') (units + units') (exact + exact') := by
  constructor
  · rw [Nat.cast_add]
    exact add_le_add h.le h'.le
  · have hlt := add_lt_add h.lt h'.lt
    push_cast
    linarith only [hlt]

theorem OverBy.add (h : OverBy slack units exact) (h' : OverBy slack' units' exact') :
    OverBy (slack + slack') (units + units') (exact + exact') := by
  constructor
  · rw [Nat.cast_add]
    exact add_le_add h.le h'.le
  · have hlt := add_lt_add h.lt h'.lt
    push_cast
    linarith only [hlt]

/-- The part of the whole that shares with these divisors make up together. -/
def PerFacility.fraction (divisors : PerFacility Nat) : ℚ :=
  1 / divisors.vipLoan + 1 / divisors.crossMargin + 1 / divisors.portfolioMargin

theorem PerFacility.mul_fraction (equity : ℚ) (divisors : PerFacility Nat) :
    equity * divisors.fraction = equity / divisors.vipLoan + equity / divisors.crossMargin +
      equity / divisors.portfolioMargin := by
  simp only [fraction, mul_add, mul_one_div]

theorem shortBy_div {d : Nat} (hd : 0 < d) (n : Nat) : ShortBy 1 (n / d) (n / d : ℚ) := by
  have hd' : (0 : ℚ) < d := Nat.cast_pos.mpr hd
  constructor
  · exact Nat.cast_div_le
  · rw [div_lt_iff₀ hd']
    exact_mod_cast Nat.lt_mul_of_div_lt (Nat.lt_succ_self (n / d)) hd

theorem overBy_divUp {d : Nat} (hd : 0 < d) (n : Nat) : OverBy 1 (divUp n d) (n / d : ℚ) := by
  have hd' : (0 : ℚ) < d := Nat.cast_pos.mpr hd
  constructor
  · rw [div_le_iff₀ hd']
    exact_mod_cast le_divUp_mul hd n
  · have hlt : ((divUp n d * d : Nat) : ℚ) < (n + d : Nat) := Nat.cast_lt.mpr (divUp_mul_lt hd n)
    push_cast at hlt
    rwa [Nat.cast_one, div_add_one hd'.ne', lt_div_iff₀ hd']

namespace Pledge
variable {divisors : PerFacility Nat}

theorem shortBy_total_share (hd : ∀ facility, 0 < divisors.on facility) (equity : Nat) :
    ShortBy 3 (share equity divisors).total (equity * divisors.fraction) := by
  rw [PerFacility.mul_fraction]
  exact ((shortBy_div (hd .vipLoan) equity).add (shortBy_div (hd .crossMargin) equity)).add
    (shortBy_div (hd .portfolioMargin) equity)

theorem overBy_total_shareUp (hd : ∀ facility, 0 < divisors.on facility) (equity : Nat) :
    OverBy 3 (shareUp equity divisors).total (equity * divisors.fraction) := by
  rw [PerFacility.mul_fraction]
  exact ((overBy_divUp (hd .vipLoan) equity).add (overBy_divUp (hd .crossMargin) equity)).add
    (overBy_divUp (hd .portfolioMargin) equity)

/-- Shares stay on the side of their exact sum that they are rounded to, and with it on that side of
the equity which the divisors promise. -/
theorem total_shares {divisors : PerFacility Nat} (hd : ∀ facility, 0 < divisors.on facility)
    (equity : Nat) :
    ShortBy 3 (share equity divisors).total (equity * divisors.fraction) ∧
    OverBy 3 (shareUp equity divisors).total (equity * divisors.fraction) ∧
    (divisors.fraction ≤ 1 → (share equity divisors).total ≤ equity) ∧
    (1 < divisors.fraction → 0 < equity → equity < (shareUp equity divisors).total) := by
  have hshort := shortBy_total_share hd equity
  have hover := overBy_total_shareUp hd equity
  refine ⟨hshort, hover, ?_, ?_⟩
  · intro hpart
    have hexact : equity * divisors.fraction ≤ (equity : ℚ) :=
      mul_le_of_le_one_right (Nat.cast_nonneg equity) hpart
    exact_mod_cast hshort.le.trans hexact
  · intro hpart hequity
    have hexact : (equity : ℚ) < equity * divisors.fraction :=
      lt_mul_of_one_lt_right (Nat.cast_pos.mpr hequity) hpart
    exact_mod_cast hexact.trans_le hover.le

/-- Parts that lack one in forty-two of the whole, and parts that have one in thirty too many. -/
theorem greatestEquity_shares :
    (∀ facility, 0 < (⟨2, 3, 7⟩ : PerFacility Nat).on facility) ∧
    (∀ facility, 0 < (⟨2, 3, 5⟩ : PerFacility Nat).on facility) ∧
    (⟨2, 3, 7⟩ : PerFacility Nat).fraction = 41 / 42 ∧
    (⟨2, 3, 5⟩ : PerFacility Nat).fraction = 31 / 30 ∧
    (share 42 ⟨2, 3, 7⟩).total = 41 ∧ (share (wordLimit - 1) ⟨2, 3, 7⟩).total ≤ wordLimit - 1 ∧
    1 < (shareUp 1 ⟨2, 3, 5⟩).total ∧
    wordLimit - 1 < (shareUp (wordLimit - 1) ⟨2, 3, 5⟩).total := by
  have hlacking : ∀ facility, 0 < (⟨2, 3, 7⟩ : PerFacility Nat).on facility := by
    intro facility
    cases facility <;> decide
  have hpassing : ∀ facility, 0 < (⟨2, 3, 5⟩ : PerFacility Nat).on facility := by
    intro facility
    cases facility <;> decide
  have hlack : (⟨2, 3, 7⟩ : PerFacility Nat).fraction = 41 / 42 := by
    norm_num [PerFacility.fraction]
  have hpass : (⟨2, 3, 5⟩ : PerFacility Nat).fraction = 31 / 30 := by
    norm_num [PerFacility.fraction]
  have hone : 1 < (⟨2, 3, 5⟩ : PerFacility Nat).fraction := by
    rw [hpass]
    norm_num
  obtain ⟨_, _, hwithin, _⟩ := total_shares hlacking (wordLimit - 1)
  obtain ⟨_, _, _, hbeyond⟩ := total_shares hpassing (wordLimit - 1)
  obtain ⟨_, _, _, hsmall⟩ := total_shares hpassing 1
  refine ⟨hlacking, hpassing, hlack, hpass, rfl, hwithin ?_, hsmall hone Nat.one_pos,
    hbeyond hone (by decide)⟩
  rw [hlack]
  norm_num

end Pledge
end Solvency
