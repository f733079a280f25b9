import Solvency.Proofs.Decimal.Reading

/-! # Places behind the point

A number in the plain form has no more places than there are digits behind its point. Some digits
may round the number instead, or be passed over, but none adds a place without being there.
-/
namespace Solvency.Decimal
open Text

/-- The digits behind the first point. -/
def places (cs : List Char) : Nat := (cs.dropWhile (· != '.')).countP Char.isDigit

variable {x y : Decimal} {cs : List Char} {c : Char}

theorem places_point : places ('.' :: cs) = cs.countP Char.isDigit := by
  simp [places]

theorem places_cons (hc : c ≠ '.') : places (c :: cs) = places cs := by
  simp [places, hc]

@[simp] theorem places_withoutSign (cs : List Char) : places (withoutSign cs) = places cs := by
  rcases withoutSign_cases cs with h | ⟨c, rfl | rfl, h⟩
  · rw [h]
  · rw [h, places_cons (by decide)]
    rfl
  · rw [h, places_cons (by decide)]
    rfl

theorem FractionRead.scale_le (h : FractionRead x cs y) :
    y.scale ≤ x.scale + cs.countP Char.isDigit := by
  induction h with
  | done => exact Nat.le_add_right _ _
  | skip _ ih => exact ih
  | keep hc _ _ _ ih =>
    rw [List.countP_cons_of_pos hc]
    dsimp only at ih
    omega
  | round _ _ _ h => exact (roundBy_eq_some h).2.1.trans (Nat.le_add_right _ _)
  | stop => exact Nat.le_add_right _ _

theorem WholeRead.scale_le (h : WholeRead x cs y) : y.scale ≤ x.scale + places cs := by
  induction h with
  | done => exact Nat.le_add_right _ _
  | point h =>
    rw [places_point]
    exact h.scale_le
  | skip _ ih =>
    rw [places_cons (by decide)]
    exact ih
  | keep hc _ _ ih =>
    rw [places_cons (by rintro rfl; cases hc)]
    exact ih

theorem scale_le_of_readPlain (h : readPlain cs = some y) : y.scale ≤ places cs := by
  have hle := (wholeRead_of_readPlain h).scale_le
  rwa [Nat.zero_add, places_withoutSign] at hle

theorem readScientific_eq_none (h : ∀ c ∈ cs, (!isExponentMark c) = true) :
    readScientific cs = none := by
  rw [readScientific, List.dropWhile_eq_nil_iff.mpr h]

end Solvency.Decimal
