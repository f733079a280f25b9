import Solvency.Amount
import Solvency.Proofs.Decimal.Numeral

/-! # Amounts are read as they were written

The digits behind the point stand for the part of the units below one whole, with nothing rounded
away. As long as the power of ten at the precision has room, what has been written is read back, and
once it has none, nothing is.
-/
namespace Solvency.Amount
open Text

/-- Only zeros are taken from the end. -/
theorem dropEndWhile_append_zeros (cs : List Char) :
    ∃ z, dropEndWhile (· == '0') cs ++ List.replicate z '0' = cs := by
  have hz : ∀ c ∈ cs.rtakeWhile (· == '0'), c = '0' := by
    intro c hc
    exact beq_iff_eq.mp (List.mem_rtakeWhile_imp (p := fun c => c == '0') hc)
  refine ⟨(cs.rtakeWhile (· == '0')).length, ?_⟩
  rw [← List.eq_replicate_of_mem hz]
  exact List.rdropWhile_append_rtakeWhile

theorem ofDigits_leftpad (width n : Nat) : ofDigits ((digits n).leftpad width '0') = n := by
  rw [List.leftpad, ofDigits, Nat.ofDigitChars_append, Nat.ofDigitChars_replicate_zero,
    Nat.mul_zero]
  exact ofDigits_digits n

theorem isDigit_of_mem_leftpad {width n : Nat} {c : Char}
    (hc : c ∈ (digits n).leftpad width '0') : c.isDigit = true := by
  rw [List.leftpad] at hc
  rcases List.mem_append.mp hc with hc | hc
  · rw [List.eq_of_mem_replicate hc]
    decide
  · exact isDigit_of_mem_digits hc

theorem length_leftpad {width n : Nat} (hn : n < tenTo width) (hw : 0 < width) :
    ((digits n).leftpad width '0').length = width := by
  have hl : (digits n).length ≤ width := (Nat.length_toDigits_le_iff (by decide) hw).mpr hn
  rw [List.leftpad, List.length_append, List.length_replicate]
  exact Nat.sub_add_cancel hl

/-- A fraction of nothing is written as one zero; otherwise zeros without meaning have been taken
from the places of the precision. -/
theorem fractionDigits_cases {precision fraction : Nat} (hf : fraction < tenTo precision) :
    (fraction = 0 ∧ fractionDigits precision fraction = ['0']) ∨
    ∃ z, (fractionDigits precision fraction).length + z = precision ∧
      ofDigits (fractionDigits precision fraction) * tenTo z = fraction := by
  obtain ⟨z, hz⟩ := dropEndWhile_append_zeros ((digits fraction).leftpad precision '0')
  have hv := ofDigits_leftpad precision fraction
  rw [← hz, ofDigits, Nat.ofDigitChars_append, Nat.ofDigitChars_replicate_zero] at hv
  unfold fractionDigits
  cases hk : dropEndWhile (· == '0') ((digits fraction).leftpad precision '0') with
  | nil =>
    rw [hk, Nat.ofDigitChars_nil, Nat.mul_zero] at hv
    exact Or.inl ⟨hv.symm, rfl⟩
  | cons c cs =>
    have hp : 0 < precision := by
      rcases Nat.eq_zero_or_pos precision with rfl | hp
      · obtain rfl := Nat.lt_one_iff.mp hf
        rw [show dropEndWhile (· == '0') ((digits 0).leftpad 0 '0') = [] by decide] at hk
        cases hk
      · exact hp
    have hl := length_leftpad hf hp
    rw [← hz, hk, List.length_append, List.length_replicate] at hl
    rw [hk, Nat.mul_comm] at hv
    exact Or.inr ⟨z, hl, hv⟩

theorem fractionDigits_value {precision fraction : Nat} (hf : fraction < tenTo precision) :
    ofDigits (fractionDigits precision fraction) * tenTo precision =
      fraction * tenTo (fractionDigits precision fraction).length := by
  rcases fractionDigits_cases hf with ⟨rfl, hd⟩ | ⟨z, hl, hv⟩
  · rw [hd, Nat.zero_mul, show ofDigits ['0'] = 0 from rfl, Nat.zero_mul]
  · have ht : tenTo precision =
        tenTo z * tenTo (fractionDigits precision fraction).length := by
      rw [← tenTo_add, Nat.add_comm, hl]
    rw [ht, ← Nat.mul_assoc, hv]

theorem length_fractionDigits_le {precision fraction : Nat} (hf : fraction < tenTo precision) :
    (fractionDigits precision fraction).length ≤ precision + 1 := by
  rcases fractionDigits_cases hf with ⟨_, hd⟩ | ⟨z, hl, _⟩
  · rw [hd, List.length_singleton]
    omega
  · omega

theorem isDigit_of_mem_fractionDigits {precision fraction : Nat} {c : Char}
    (hc : c ∈ fractionDigits precision fraction) : c.isDigit = true := by
  obtain ⟨z, hz⟩ := dropEndWhile_append_zeros ((digits fraction).leftpad precision '0')
  unfold fractionDigits at hc
  cases hk : dropEndWhile (· == '0') ((digits fraction).leftpad precision '0') with
  | nil =>
    rw [hk, List.mem_singleton] at hc
    rw [hc]
    decide
  | cons d ds =>
    rw [hk] at hc hz
    exact isDigit_of_mem_leftpad (hz ▸ List.mem_append_left _ hc)

/-- What the text of an amount is read as: all its digits, over the places behind the point. -/
def decimalOf (precision magnitude : Nat) : Decimal where
  negative := false
  mantissa := Nat.ofDigitChars 10 (fractionDigits precision (magnitude % tenTo precision))
    (magnitude / tenTo precision)
  scale := (fractionDigits precision (magnitude % tenTo precision)).length

theorem decimalOf_scale_le (precision magnitude : Nat) :
    (decimalOf precision magnitude).scale ≤ precision + 1 :=
  length_fractionDigits_le (Nat.mod_lt magnitude (tenTo_pos precision))

/-- No unit is lost: the decimal is the magnitude over the power of ten at the precision. -/
theorem decimalOf_value (precision magnitude : Nat) :
    (decimalOf precision magnitude).mantissa * tenTo precision =
      magnitude * tenTo (decimalOf precision magnitude).scale := by
  have hf := fractionDigits_value (Nat.mod_lt magnitude (tenTo_pos precision))
  have hd := Nat.div_add_mod magnitude (tenTo precision)
  simp only [decimalOf]
  generalize fractionDigits precision (magnitude % tenTo precision) = ds at hf ⊢
  rw [Nat.ofDigitChars_eq_ofDigitChars_zero, Nat.add_mul]
  calc
    10 ^ ds.length * (magnitude / tenTo precision) * tenTo precision +
        ofDigits ds * tenTo precision
      = tenTo precision * (magnitude / tenTo precision) * tenTo ds.length +
          magnitude % tenTo precision * tenTo ds.length := by
        rw [hf, Nat.mul_assoc, Nat.mul_comm (10 ^ ds.length),
          Nat.mul_comm (magnitude / tenTo precision)]
        rfl
    _ = magnitude * tenTo ds.length := by rw [← Nat.add_mul, hd]

theorem decimalOf_mantissa_le (precision magnitude : Nat) :
    (decimalOf precision magnitude).mantissa ≤ 10 * magnitude := by
  have ht : tenTo (decimalOf precision magnitude).scale ≤ tenTo precision * 10 :=
    Nat.pow_le_pow_right (by decide) (decimalOf_scale_le precision magnitude)
  refine Nat.le_of_mul_le_mul_right ?_ (tenTo_pos precision)
  rw [decimalOf_value, Nat.mul_comm 10, Nat.mul_assoc, Nat.mul_comm 10]
  exact Nat.mul_le_mul_left magnitude ht

def numeralOf (precision magnitude : Nat) : Decimal.Numeral where
  mark := .none
  whole := digits (magnitude / tenTo precision)
  point := true
  fraction := fractionDigits precision (magnitude % tenTo precision)
  isDigit := List.forall_mem_append.mpr
    ⟨fun _ => isDigit_of_mem_digits, fun _ => isDigit_of_mem_fractionDigits⟩
  digits_ne := List.append_ne_nil_of_left_ne_nil (digits_ne_nil _) _
  pointed _ := rfl

theorem numeralOf_text (precision magnitude : Nat) :
    (numeralOf precision magnitude).text = magnitudeText precision magnitude := by
  rw [Decimal.Numeral.text, Decimal.Numeral.unsigned, List.append_assoc]
  rfl

theorem numeralOf_decimal (precision magnitude : Nat) :
    (numeralOf precision magnitude).decimal = decimalOf precision magnitude := by
  rw [Decimal.Numeral.decimal, Decimal.ofDigits_append, decimalOf]
  simp only [numeralOf, ofDigits_digits]
  rfl

theorem read_magnitudeText {precision magnitude : Nat} (hp : precision < Decimal.maxScale)
    (hm : 10 * magnitude ≤ Decimal.maxMantissa) :
    Decimal.read (magnitudeText precision magnitude) = some (decimalOf precision magnitude) := by
  have hle := (decimalOf_mantissa_le precision magnitude).trans hm
  have hs := (decimalOf_scale_le precision magnitude).trans hp
  rw [← numeralOf_text, ← numeralOf_decimal]
  exact Decimal.Numeral.read_text (numeralOf_decimal precision magnitude ▸ ⟨hle, hs⟩)

theorem trimmed_magnitudeText (precision magnitude : Nat) :
    Trimmed (magnitudeText precision magnitude) :=
  numeralOf_text precision magnitude ▸ Decimal.Numeral.trimmed_text _

theorem render_natCast (precision units : Nat) :
    render precision units = String.ofList (magnitudeText precision units) := by
  rw [render, if_neg (by omega), Int.natAbs_natCast, List.nil_append]

/-- Eighteen places are the most whose power of ten has room. -/
theorem tenTo_lt_multiplierLimit {precision : Nat} :
    tenTo precision < multiplierLimit ↔ precision ≤ 18 := by
  constructor
  · intro h
    by_contra hp
    have hle : tenTo 19 ≤ tenTo precision := Nat.pow_le_pow_right (by decide) (Nat.lt_of_not_le hp)
    have hlimit : multiplierLimit ≤ tenTo 19 := by decide
    omega
  · intro h
    have hle : tenTo precision ≤ tenTo 18 := Nat.pow_le_pow_right (by decide) h
    exact hle.trans_lt (by decide)

theorem scaled?_of_read {text : String} {x : Decimal} {multiplier : Nat}
    (hx : Decimal.read (trim text.toList) = some x) (hm : multiplier < multiplierLimit) :
    scaled? text multiplier =
      if x.isBelowZero then none else (x.times? (Decimal.ofNat multiplier)).map Decimal.whole := by
  rw [scaled?, hx, Option.bind_eq_bind, Option.bind_some]
  by_cases hneg : x.isBelowZero = true
  · rw [if_pos (.inl hneg), if_pos hneg]
  · rw [if_neg (by simpa [hneg] using hm), if_neg hneg]
    cases x.times? (Decimal.ofNat multiplier) <;> rfl

theorem scaled?_render {precision units : Nat} (hp : precision ≤ 18) (hu : units < wordLimit) :
    scaled? (render precision units) (tenTo precision) = some units := by
  have hlimit : 10 * wordLimit ≤ Decimal.maxMantissa := by decide
  have hten : tenTo precision < multiplierLimit := tenTo_lt_multiplierLimit.mpr hp
  have hp' : precision < Decimal.maxScale := lt_of_le_of_lt hp (by decide)
  have hread := read_magnitudeText hp' (show 10 * units ≤ Decimal.maxMantissa by omega)
  obtain ⟨y, hy, hw⟩ := Decimal.times?_whole (decimalOf_value precision units) (by omega)
  have htext : Decimal.read (trim (render precision units).toList) =
      some (decimalOf precision units) := by
    rw [render_natCast, String.toList_ofList, (trimmed_magnitudeText precision units).trim_eq, hread]
  have hsign : ¬(decimalOf precision units).isBelowZero = true := by
    rintro h
    cases h
  rw [scaled?_of_read htext hten, if_neg hsign, hy, Option.map_some, hw]

/-- Units are read back from what they are written as, at every precision up to eighteen. -/
theorem units?_render_natCast {precision units : Nat} (hp : precision ≤ 18)
    (hu : units < wordLimit) : units? (render precision units) precision = some units := by
  rw [units?, scaled?_render hp hu, Option.filter_some, if_pos (decide_eq_true hu)]

/-- No text is scaled by a multiplier without room. -/
theorem scaled?_eq_none {text : String} {multiplier : Nat} (h : multiplierLimit ≤ multiplier) :
    scaled? text multiplier = none := by
  unfold scaled?
  cases Decimal.read (trim text.toList) with
  | none => rfl
  | some x => simp [h]

/-- Units come back from their text up to a precision of eighteen, and from no text beyond it, where
the units of a whole have no room as a multiplier. -/
theorem units?_render {units : Nat} (hu : units < wordLimit) (precision : Nat) :
    (precision ≤ 18 → units? (render precision units) precision = some units) ∧
    (19 ≤ precision → multiplierLimit ≤ tenTo precision ∧
      units? (render precision units) precision = none) := by
  constructor
  · intro hp
    exact units?_render_natCast hp hu
  · intro hp
    have hlimit : multiplierLimit ≤ tenTo precision :=
      Nat.not_lt.mp fun h => absurd (tenTo_lt_multiplierLimit.mp h) (by omega)
    exact ⟨hlimit, by rw [units?, scaled?_eq_none hlimit, Option.filter_none]⟩

/-- The greatest word, whose digits at eighteen places outgrow a mantissa once they are scaled. -/
theorem greatestWord_rendered :
    wordLimit - 1 < wordLimit ∧ Decimal.maxMantissa < (wordLimit - 1) * tenTo 18 ∧
    units? (render 18 (wordLimit - 1 : Nat)) 18 = some (wordLimit - 1) ∧
    units? (render 38 (wordLimit - 1 : Nat)) 38 = none := by
  have hu : wordLimit - 1 < wordLimit := by decide
  have hread := (units?_render hu 18).1 le_rfl
  have hnone := (units?_render hu 38).2 (by decide)
  exact ⟨hu, by decide, hread, hnone.2⟩

end Solvency.Amount
