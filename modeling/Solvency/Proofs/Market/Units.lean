import Solvency.Proofs.Market.Bounded
import Solvency.Proofs.Ratio
import Solvency.Proofs.Verdict.FaceSolvency

/-! # Units for a value

As many units as possible are taken to stay within a value and as few as possible to cover it. Both
come to the optimal whole number or are refused because it has no word, and they are at most one unit
apart. A debt beyond a capacity is thus the least one that passes it by what was asked for, unless the
value to be reached or the debt itself has no room. The capacity is what is kept of it: if it
overflows itself, the debt falls short.
-/
namespace Solvency

/-- The units nearest to a value on both sides, and the outcome of looking for each. -/
structure Quote.Enclosed (q : Quote) (value low high : Nat) : Prop where
  greatest : IsGreatest {u | u * q.price ≤ value} low
  least : IsLeast {u | value ≤ u * q.price} high
  within : Narrowed .unitsOfValue low (q.unitsWithin value)
  covering : Narrowed .unitsOfValue high (q.unitsCovering value)
  le : low ≤ high
  close : high ≤ low + 1
  exact_iff : low = high ↔ q.price ∣ value

theorem Quote.enclosed {q : Quote} (hq : 0 < q.price) (value : Nat) :
    q.Enclosed value (value / q.price) (divUp value q.price) where
  greatest := isGreatest_div hq value
  least := isLeast_divUp hq value
  within := narrowed_narrow .unitsOfValue _
  covering := narrowed_narrow .unitsOfValue _
  le := div_le_divUp hq value
  close := divUp_le_succ hq value
  exact_iff := div_eq_divUp hq value

/-- The least units worth at least `target`, and the outcome of looking for them: neither they nor the
target may be too large. -/
structure Quote.Reached (q : Quote) (target debt : Nat) (x : Except Fault Nat) : Prop where
  least : IsLeast {u | target ≤ u * q.price} debt
  eq_ok : ∀ k, x = .ok k ↔ (target < valueLimit ∧ debt < wordLimit) ∧ debt = k
  eq_error : ∀ fault, x = .error fault ↔
    (valueLimit ≤ target ∧ fault = .overflow .overshoot) ∨
      (target < valueLimit ∧ wordLimit ≤ debt ∧ fault = .overflow .unitsOfValue)

theorem Listing.reached_debtBeyond [Arithmetic] {l : Listing} (hp : 0 < l.quote.price)
    (policy : TopPolicy) (pledge : Pledge) (overshoot : Nat) :
    ∃ debt, l.quote.Reached (l.capacity policy pledge + overshoot) debt
      (l.debtBeyond policy pledge overshoot) := by
  have hs := l.quote.enclosed hp (l.capacity policy pledge + overshoot)
  refine ⟨_, hs.least, ?_, ?_⟩
  · intro k
    unfold debtBeyond
    dsimp only
    split
    · rename_i ht
      rw [hs.covering.eq_ok, and_iff_right ht]
    · rename_i ht
      simp [ht]
  · intro fault
    unfold debtBeyond
    dsimp only
    split
    · rename_i ht
      rw [hs.covering.eq_error, and_iff_right ht, or_iff_right fun h => absurd ht (Nat.not_lt.mpr h.1)]
    · rename_i ht
      rw [or_iff_left fun h => ht h.1, and_iff_right (Nat.not_lt.mp ht), Except.error.injEq, eq_comm]

theorem Quote.isGreatest_of_unitsWithin {q : Quote} {value units : Nat} (hp : 0 < q.price)
    (h : q.unitsWithin value = .ok units) : IsGreatest {u | u * q.price ≤ value} units := by
  have hs := q.enclosed hp value
  obtain ⟨_, rfl⟩ := (hs.within.eq_ok units).mp h
  exact hs.greatest

theorem Listing.isLeast_of_debtBeyond [Arithmetic] {l : Listing} (hp : 0 < l.quote.price)
    {policy : TopPolicy} {pledge : Pledge} {overshoot debt : Nat}
    (h : l.debtBeyond policy pledge overshoot = .ok debt) :
    IsLeast {u | l.capacity policy pledge + overshoot ≤ u * l.quote.price} debt := by
  obtain ⟨_, hr⟩ := l.reached_debtBeyond hp policy pledge overshoot
  obtain ⟨_, rfl⟩ := (hr.eq_ok debt).mp h
  exact hr.least

/-- The greatest word at two facilities. -/
def crowdedPledge : Pledge := ⟨wordLimit - 1, wordLimit - 1, 0⟩

end Solvency
