import Solvency.Amount
import Solvency.Proofs.Decimal.Digits
import Solvency.Proofs.Decimal.Places

/-! # Plain amounts

An amount without an exponent is scaled without loss by every power of ten that has room for its
places. What is read with two such multipliers is therefore the same number in two units.
-/
namespace Solvency.Amount
open Text

/-- The text has no exponent and at most `places` digits behind its point. -/
def isPlain (places : Nat) (text : String) : Bool :=
  let cs := trim text.toList
  cs.all (!Decimal.isExponentMark ·) && Decimal.places cs ≤ places

theorem scale_le_of_isPlain {places : Nat} {text : String} {x : Decimal}
    (h : isPlain places text = true) (hx : Decimal.read (trim text.toList) = some x) :
    x.scale ≤ places := by
  obtain ⟨hmarks, hle⟩ := (Bool.and_eq_true _ _).mp h
  rw [Decimal.read, Decimal.readScientific_eq_none (List.all_eq_true.mp hmarks),
    Option.or_none] at hx
  exact (Decimal.scale_le_of_readPlain hx).trans (of_decide_eq_true hle)

theorem scaled?_eq_some {text : String} {multiplier q : Nat}
    (h : scaled? text multiplier = some q) :
    ∃ x y, Decimal.read (trim text.toList) = some x ∧ x.isBelowZero = false ∧
      x.times? (Decimal.ofNat multiplier) = some y ∧ y.whole = q := by
  obtain ⟨x, hx, h⟩ := Option.bind_eq_some_iff.mp h
  split at h
  · cases h
  · rename_i hroom
    obtain ⟨y, hy, h⟩ := Option.bind_eq_some_iff.mp h
    exact ⟨x, y, hx, Bool.not_eq_true _ ▸ fun hx => hroom (.inl hx), hy, Option.some.inj h⟩

/-- No digit is lost when the multiplier has as many zeros as the decimal has places. -/
theorem scaled?_exact {text : String} {x : Decimal} {k q : Nat}
    (hx : Decimal.read (trim text.toList) = some x) (hk : x.scale ≤ k)
    (h : scaled? text (tenTo k) = some q) : q * tenTo x.scale = x.mantissa * tenTo k := by
  obtain ⟨z, y, hz, _, hy, rfl⟩ := scaled?_eq_some h
  obtain rfl : x = z := Option.some.inj (hx.symm.trans hz)
  have hsplit : x.mantissa * tenTo k = x.mantissa * tenTo (k - x.scale) * tenTo x.scale := by
    rw [Nat.mul_assoc, ← tenTo_add, Nat.sub_add_cancel hk]
  rw [Decimal.whole_of_times? hsplit hy, hsplit]

variable {places k j q r : Nat} {text : String}

/-- The same number in two units, each with room for its places. -/
theorem scaled?_proportional (hp : isPlain places text = true) (hk : places ≤ k) (hj : places ≤ j)
    (hq : scaled? text (tenTo k) = some q) (hr : scaled? text (tenTo j) = some r) :
    q * tenTo j = r * tenTo k := by
  obtain ⟨x, _, hx, _⟩ := scaled?_eq_some hq
  have hs := scale_le_of_isPlain hp hx
  have hqx := scaled?_exact hx (hs.trans hk) hq
  have hrx := scaled?_exact hx (hs.trans hj) hr
  apply Nat.eq_of_mul_eq_mul_right (tenTo_pos x.scale)
  calc
    q * tenTo j * tenTo x.scale = q * tenTo x.scale * tenTo j := Nat.mul_right_comm _ _ _
    _ = x.mantissa * tenTo j * tenTo k := by rw [hqx, Nat.mul_right_comm]
    _ = r * tenTo k * tenTo x.scale := by rw [← hrx, Nat.mul_right_comm]

theorem units?_proportional (hp : isPlain places text = true) (hk : places ≤ k) (hj : places ≤ j)
    (hq : units? text k = some q) (hr : units? text j = some r) : q * tenTo j = r * tenTo k :=
  scaled?_proportional hp hk hj (Option.filter_eq_some_iff.mp hq).1
    (Option.filter_eq_some_iff.mp hr).1

end Solvency.Amount
