import Solvency.Proofs.Amount.Plain
import Solvency.Proofs.Decimal.Denoted

/-! # Amounts are cut off below the unit

Where the digits of a text, the number that it denotes and its product with the multiplier all have
room, nothing is rounded before the product is cut off, which then loses less than a unit. What has no
room is rounded, and a run of nines carries into the units.
-/
namespace Solvency.Amount
open Text Decimal

def denoted (text : String) : ℚ := Decimal.denoted (trim text.toList)

/-- Every number on the way to the units is that of a decimal. A power of ten only moves the point and
needs no more room than that. -/
structure HasRoom (text : String) (multiplier : Nat) : Prop where
  base : Representable (written (base (trim text.toList))).value
  number : Representable (denoted text)
  product : (∃ k, multiplier = tenTo k) ∨ Representable (denoted text * multiplier)

variable {text : String} {multiplier r : Nat}

/-- What has room is never rounded up. -/
theorem scaled?_truncated (hroom : HasRoom text multiplier) (h : scaled? text multiplier = some r) :
    (r : ℚ) ≤ denoted text * multiplier ∧ denoted text * multiplier < r + 1 := by
  obtain ⟨x, y, hx, hsign, hy, rfl⟩ := scaled?_eq_some h
  have hv : x.value = denoted text := read_exact hx hroom.base hroom.number
  have hproduct : y.value = denoted text * multiplier := by
    rw [← hv]
    rcases hroom.product with ⟨k, rfl⟩ | hproduct
    · rw [(times?_tenTo (read_bounded hx) hy).1]
      simp [tenTo]
    · exact times?_exact hy (hv ▸ hproduct)
  have hx0 : 0 ≤ x.value := by
    by_contra hneg
    rw [(isBelowZero_iff x).mpr (lt_of_not_ge hneg)] at hsign
    cases hsign
  have hnonneg : 0 ≤ y.value := by
    rw [hproduct, ← hv]
    exact mul_nonneg hx0 (Nat.cast_nonneg multiplier)
  rw [← hproduct]
  exact whole_bounds hnonneg

/-- Two to the ninety-second over a thousand: twenty-eight digits, whose product with twenty-five has
room only because it ends in zeros. -/
theorem longAmount_truncated :
    HasRoom " 4951760157141521099596496896E-3" 25 ∧
    scaled? " 4951760157141521099596496896E-3" 25 = some 123794003928538027489912422 ∧
    123794003928538027489912422 ≤ denoted " 4951760157141521099596496896E-3" * 25 ∧
    denoted " 4951760157141521099596496896E-3" * 25 < 123794003928538027489912422 + 1 := by
  have hwritten : written (base (trim (" 4951760157141521099596496896E-3").toList)) =
      ⟨false, 4951760157141521099596496896, 0⟩ := by decide
  have hexponent : exponent (trim (" 4951760157141521099596496896E-3").toList) = -3 := by decide
  have hdenoted : denoted " 4951760157141521099596496896E-3" = 4951760157141521099596496896 / 1000 := by
    rw [denoted, Decimal.denoted, hwritten, hexponent]
    norm_num [value, magnitude, sign]
  have hroom : HasRoom " 4951760157141521099596496896E-3" 25 := {
    base := hwritten ▸ ⟨_, ⟨by decide, by decide⟩, rfl⟩
    number := ⟨⟨false, 4951760157141521099596496896, 3⟩, ⟨by decide, by decide⟩, by
      rw [hdenoted]
      norm_num [value, magnitude, sign]⟩
    product := .inr ⟨⟨false, 1237940039285380274899124224, 1⟩, ⟨by decide, by decide⟩, by
      rw [hdenoted]
      norm_num [value, magnitude, sign]⟩ }
  have hscaled : scaled? " 4951760157141521099596496896E-3" 25 =
      some 123794003928538027489912422 := by decide
  have hbounds := scaled?_truncated hroom hscaled
  exact ⟨hroom, hscaled, by exact_mod_cast hbounds⟩

/-- Thirty-two nines behind the point have no room and are rounded up to a whole unit. -/
theorem longNines_roundedUp :
    scaled? "0.99999999999999999999999999999999" 1 = some 1 ∧
    denoted "0.99999999999999999999999999999999" * (1 : Nat) < (1 : Nat) := by
  have hwritten : written (base (trim ("0.99999999999999999999999999999999").toList)) =
      ⟨false, 99999999999999999999999999999999, 32⟩ := by decide
  have hexponent : exponent (trim ("0.99999999999999999999999999999999").toList) = 0 := by decide
  refine ⟨by decide, ?_⟩
  rw [denoted, Decimal.denoted, hwritten, hexponent]
  norm_num [value, magnitude, sign]

end Solvency.Amount
