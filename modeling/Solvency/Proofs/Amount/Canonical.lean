import Solvency.Proofs.Amount.Numeral

/-! # The text of an amount

Units are written as a numeral from which no digit can be left out. Whatever their sign and the
precision, it denotes exactly the units that it was written from, over the power of ten at the
precision, so that no two amounts of one precision have the same text.
-/
namespace Solvency
open Text

/-- A number is written with a zero in front only if it is zero. -/
theorem Text.digits_of_head_zero {n : Nat} (h : (digits n).head? = some '0') : digits n = ['0'] := by
  induction n using Nat.strong_induction_on with
  | _ n ih =>
    unfold digits at h ih ⊢
    by_cases hn : n < 10
    · rw [Nat.toDigits_of_lt_base hn] at h ⊢
      rw [Option.some.inj h]
    · have hlong := Nat.toDigits_of_base_le (by decide) (Nat.not_lt.mp hn)
      rw [hlong, List.head?_append_of_ne_nil _ Nat.toDigits_ne_nil] at h
      have hzero := ofDigits_digits (n / 10)
      rw [digits, ih (n / 10) (by omega) h] at hzero
      have hq : 0 = n / 10 := hzero
      omega

/-- Digits on both sides of the point, and no zero at either end but one that stands alone. -/
structure Decimal.Numeral.Canonical (n : Decimal.Numeral) : Prop where
  point : n.point = true
  whole_ne : n.whole ≠ []
  fraction_ne : n.fraction ≠ []
  leading : n.whole.head? = some '0' → n.whole = ['0']
  trailing : n.fraction.getLast? = some '0' → n.fraction = ['0']

namespace Amount
open Decimal

theorem fractionDigits_of_last_zero {precision fraction : Nat}
    (h : (fractionDigits precision fraction).getLast? = some '0') :
    fractionDigits precision fraction = ['0'] := by
  unfold fractionDigits at h ⊢
  cases hk : dropEndWhile (· == '0') ((digits fraction).leftpad precision '0') with
  | nil => rfl
  | cons c cs =>
    -- what has been taken from the end does not end in a zero any more
    rw [hk] at h
    dsimp only at h
    rw [← hk, dropEndWhile, List.getLast?_reverse] at h
    cases not_of_head_dropWhile h

theorem fractionDigits_ne_nil (precision fraction : Nat) :
    fractionDigits precision fraction ≠ [] := by
  unfold fractionDigits
  split
  · exact List.cons_ne_nil _ _
  · assumption

/-- The numeral that units are written as. -/
def signedNumeral (precision : Nat) (units : Int) : Numeral :=
  { numeralOf precision units.natAbs with mark := if units < 0 then .minus else .none }

theorem signedNumeral_canonical (precision : Nat) (units : Int) :
    (signedNumeral precision units).Canonical where
  point := rfl
  whole_ne := digits_ne_nil _
  fraction_ne := fractionDigits_ne_nil _ _
  leading := digits_of_head_zero
  trailing := fractionDigits_of_last_zero

theorem toList_render (precision : Nat) (units : Int) :
    (render precision units).toList = (signedNumeral precision units).text := by
  have hmark : (signedNumeral precision units).mark.text = if units < 0 then ['-'] else [] := by
    unfold signedNumeral
    split <;> rfl
  rw [render, String.toList_ofList, Numeral.text, hmark, ← numeralOf_text]
  rfl

/-- Sign and magnitude make up the units. -/
theorem signedNumeral_value (precision : Nat) (units : Int) :
    (signedNumeral precision units).decimal.value = (units : ℚ) / 10 ^ precision := by
  have hvalue := decimalOf_value precision units.natAbs
  have hcast : (signedNumeral precision units).decimal.mantissa * 10 ^ precision =
      units.natAbs * 10 ^ (signedNumeral precision units).decimal.scale := by
    rw [← numeralOf_decimal] at hvalue
    exact hvalue
  have hsign : sign (signedNumeral precision units).decimal.negative * (units.natAbs : ℚ) = units := by
    rw [Nat.cast_natAbs]
    by_cases hneg : units < 0
    · simp [signedNumeral, Numeral.decimal, sign, hneg, abs_of_neg hneg]
    · simp [signedNumeral, Numeral.decimal, sign, hneg, abs_of_nonneg (not_lt.mp hneg)]
  have hmagnitude : (signedNumeral precision units).decimal.magnitude =
      (units.natAbs : ℚ) / 10 ^ precision := by
    rw [magnitude, div_eq_div_iff (by positivity) (by positivity)]
    exact_mod_cast hcast
  rw [value, hmagnitude, ← mul_div_assoc, hsign]

/-- A text of so many units: the shortest numeral for them, with a minus sign if they are negative. -/
structure Exact (precision : Nat) (units : Int) (text : String) : Prop where
  numeral : ∃ n : Numeral, n.Canonical ∧ n.mark = (if units < 0 then .minus else .none) ∧
    text.toList = n.text
  denoted_eq : denoted text = (units : ℚ) / 10 ^ precision

theorem exact_render (precision : Nat) (units : Int) :
    Exact precision units (render precision units) where
  numeral := ⟨_, signedNumeral_canonical precision units, rfl, toList_render precision units⟩
  denoted_eq := by
    have hwritten : WrittenIn (signedNumeral precision units) (render precision units) :=
      ⟨[], [], by simp, by simp, by simp [toList_render]⟩
    rw [hwritten.denoted_eq, signedNumeral_value]

/-- What a text denotes at a precision determines the units. -/
theorem Exact.units_eq {precision : Nat} {units others : Int} {text : String}
    (h : Exact precision units text) (h' : Exact precision others text) : units = others := by
  have hq := h.denoted_eq.symm.trans h'.denoted_eq
  rw [div_left_inj' (by positivity)] at hq
  exact_mod_cast hq

theorem render_injective (precision : Nat) : Function.Injective (render precision) := by
  intro units others h
  have hunits := exact_render precision units
  rw [h] at hunits
  exact hunits.units_eq (exact_render precision others)

end Amount
end Solvency
