import Solvency.Proofs.Amount.RoundTrip
import Solvency.Proofs.Amount.Truncated

/-! # Numerals are scaled exactly

Moving the point to the right loses no digit: what a product with a power of ten has no room for are
zeros. A numeral with room is therefore scaled to the units that it denotes, less what is left
below the last one, and to nothing exactly if it is below zero or the units have no room.
-/
namespace Solvency.Amount
open Text Decimal

/-- Only blanks surround the numeral. -/
def WrittenIn (n : Numeral) (text : String) : Prop :=
  ∃ before after, (∀ c ∈ before, isBlank c = true) ∧ (∀ c ∈ after, isBlank c = true) ∧
    text.toList = before ++ n.text ++ after

variable {n : Numeral} {text : String} {k : Nat}

theorem WrittenIn.trim_eq (h : WrittenIn n text) : trim text.toList = n.text := by
  obtain ⟨before, after, hb, ha, htext⟩ := h
  rw [htext, n.trimmed_text.trim_surrounded hb ha]

theorem WrittenIn.denoted_eq (h : WrittenIn n text) : denoted text = n.decimal.value := by
  rw [denoted, h.trim_eq, n.denoted_text]

/-- The result for the number `q`, in units of which there are ten to the `k` in one. -/
structure Scaled (k : Nat) (q : ℚ) (result : Option Nat) : Prop where
  negative : q < 0 → result = none
  zero : q = 0 → result = some 0
  truncated : 0 ≤ q → q * 10 ^ k ≤ maxMantissa → result = some ⌊q * 10 ^ k⌋₊
  overflow : maxMantissa < q * 10 ^ k → result = none

/-- A numeral with room comes to the units that it denotes. A zero has no sign, whatever is written in
front of it. -/
theorem scaled?_numeral (hn : WrittenIn n text) (hb : n.decimal.Bounded) (hk : k ≤ 18) :
    denoted text = n.decimal.value ∧ Scaled k n.decimal.value (scaled? text (tenTo k)) := by
  have hread : read (trim text.toList) = some n.decimal := by
    rw [hn.trim_eq, Numeral.read_text hb]
  have hscaled := scaled?_of_read hread (tenTo_lt_multiplierLimit.mpr hk)
  have htruncated : 0 ≤ n.decimal.value → n.decimal.value * 10 ^ k ≤ maxMantissa →
      scaled? text (tenTo k) = some ⌊n.decimal.value * 10 ^ k⌋₊ := by
    intro h0 hle
    rw [hscaled, if_neg (mt (isBelowZero_iff _).mp h0.not_gt), times?_tenTo_eq_some hb h0 hle]
  refine ⟨hn.denoted_eq, fun hneg => ?_, fun hzero => ?_, htruncated, fun hover => ?_⟩
  · rw [hscaled, if_pos ((isBelowZero_iff _).mpr hneg)]
  · have h0 := htruncated hzero.ge (by simp [hzero])
    simpa [hzero] using h0
  · rw [hscaled, times?_tenTo_eq_none hb hover]
    split <;> rfl

/-- The greatest mantissa, with three places. -/
def greatest : Numeral where
  mark := .plus
  whole := "79228162514264337593543950".toList
  point := true
  fraction := "335".toList
  isDigit := List.all_eq_true.mp rfl
  digits_ne := by decide
  pointed _ := rfl

/-- The digits have room with three zeros more, which move the point behind them, but not with four. -/
theorem greatest_scaled :
    WrittenIn greatest "\t+79228162514264337593543950.335 " ∧ greatest.decimal.Bounded ∧
    scaled? "\t+79228162514264337593543950.335 " (tenTo 2) = some 7922816251426433759354395033 ∧
    scaled? "\t+79228162514264337593543950.335 " (tenTo 3) = some maxMantissa ∧
    scaled? "\t+79228162514264337593543950.335 " (tenTo 4) = none := by
  have hwritten : WrittenIn greatest "\t+79228162514264337593543950.335 " :=
    ⟨['\t'], [' '], List.forall_mem_singleton.mpr (by decide),
      List.forall_mem_singleton.mpr (by decide), by decide⟩
  have hbounded : greatest.decimal.Bounded := ⟨by decide, by decide⟩
  have hdecimal : greatest.decimal = ⟨false, 79228162514264337593543950335, 3⟩ := by decide
  have hvalue : greatest.decimal.value = 79228162514264337593543950335 / 1000 := by
    rw [hdecimal]
    norm_num [value, magnitude, sign]
  have hmax : maxMantissa = 79228162514264337593543950335 := rfl
  have htwo := (scaled?_numeral hwritten hbounded (show 2 ≤ 18 by decide)).2.truncated
  have hthree := (scaled?_numeral hwritten hbounded (show 3 ≤ 18 by decide)).2.truncated
  have hfour := (scaled?_numeral hwritten hbounded (show 4 ≤ 18 by decide)).2.overflow
  rw [hvalue, hmax] at htwo hthree hfour
  refine ⟨hwritten, hbounded, ?_, ?_, hfour (by norm_num)⟩
  · rw [htwo (by norm_num) (by norm_num)]
    norm_num
  · rw [hthree (by norm_num) (by norm_num), hmax]
    norm_num

end Solvency.Amount
