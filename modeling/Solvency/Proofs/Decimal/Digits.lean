import Mathlib
import Solvency.Decimal.Reader

/-! # Digits that fit

As long as all digits of a number fit, reading them is exact, and so is a product with a whole
number in which the places after the point cancel.
-/
namespace Solvency.Decimal
open Text

theorem isDigit_ne {c d : Char} (hc : c.isDigit = true) (hd : d.isDigit = false) : c ≠ d := by
  rintro rfl
  rw [hc] at hd
  cases hd

theorem le_ofDigitChars (ds : List Char) (n : Nat) : n ≤ Nat.ofDigitChars 10 ds n := by
  rw [Nat.ofDigitChars_eq_ofDigitChars_zero]
  exact (Nat.le_mul_of_pos_left n (Nat.pow_pos (by decide))).trans (Nat.le_add_right _ _)

theorem readWhole_digits {x : Decimal} {ds rest : List Char} (hd : ∀ c ∈ ds, c.isDigit = true)
    (hm : Nat.ofDigitChars 10 ds x.mantissa ≤ maxMantissa) :
    readWhole x (ds ++ rest) =
      readWhole { x with mantissa := Nat.ofDigitChars 10 ds x.mantissa } rest := by
  induction ds generalizing x with
  | nil => rfl
  | cons c ds ih =>
    have hc := hd c List.mem_cons_self
    rw [Nat.ofDigitChars_cons] at hm ⊢
    have hfit : c.isDigit = true ∧ 10 * x.mantissa + digitValue c ≤ maxMantissa :=
      ⟨hc, (le_ofDigitChars ds _).trans hm⟩
    rw [List.cons_append, readWhole, if_neg (isDigit_ne hc (by decide)),
      if_neg (isDigit_ne hc (by decide)), if_pos hfit]
    exact ih (fun d hd' => hd d (List.mem_cons_of_mem c hd')) hm

theorem readFraction_digits {x : Decimal} {ds : List Char} (hd : ∀ c ∈ ds, c.isDigit = true)
    (hm : Nat.ofDigitChars 10 ds x.mantissa ≤ maxMantissa) (hs : x.scale + ds.length ≤ maxScale) :
    readFraction x ds =
      some { x with mantissa := Nat.ofDigitChars 10 ds x.mantissa, scale := x.scale + ds.length } := by
  induction ds generalizing x with
  | nil => rfl
  | cons c ds ih =>
    have hc := hd c List.mem_cons_self
    have hu : c ≠ '_' := isDigit_ne hc (by decide)
    rw [List.length_cons] at hs ⊢
    rw [Nat.ofDigitChars_cons] at hm ⊢
    have hfit : x.scale < maxScale ∧ 10 * x.mantissa + digitValue c ≤ maxMantissa :=
      ⟨by omega, (le_ofDigitChars ds _).trans hm⟩
    rw [readFraction, if_neg (fun h => hu h.1), if_neg (by simp [isFiller, hc]), if_neg hu,
      if_pos hfit, ih (fun d hd' => hd d (List.mem_cons_of_mem c hd')) hm (by dsimp only; omega)]
    simp [Nat.add_comm, Nat.add_left_comm, digitValue]

theorem readPlain_digit {c : Char} (hc : c.isDigit = true) (cs : List Char) :
    readPlain (c :: cs) = readWhole ⟨false, digitValue c, 0⟩ cs := by
  have hminus : c ≠ '-' := isDigit_ne hc (by decide)
  have hplus : c ≠ '+' := isDigit_ne hc (by decide)
  unfold readPlain
  split
  · rename_i h
    exact absurd (List.cons.inj h).1 hminus
  · rename_i h
    exact absurd (List.cons.inj h).1 hplus
  · rw [readUnsigned, if_pos hc]

theorem roundEven_mul (q : Nat) {d : Nat} (hd : 0 < d) : roundEven (q * d) d = q := by
  have hm : q * d % d = 0 := Nat.mul_mod_left q d
  unfold roundEven
  simp only [hm, Nat.mul_div_cancel q hd]
  rw [if_neg (by omega)]

/-- Dropping places of a number that is whole without them rounds nothing. -/
theorem roundEven_shift {q scale k : Nat} (hk : k ≤ scale) :
    roundEven (q * tenTo scale) (tenTo k) = q * tenTo (scale - k) := by
  have hsplit : tenTo scale = tenTo (scale - k) * tenTo k := by
    rw [← tenTo_add, Nat.sub_add_cancel hk]
  rw [hsplit, ← Nat.mul_assoc, roundEven_mul _ (tenTo_pos k)]

/-- A product that is a whole number once the point is moved is that number. -/
theorem whole_of_times? {x y : Decimal} {n q : Nat} (h : x.mantissa * n = q * tenTo x.scale)
    (hy : x.times? (ofNat n) = some y) : y.whole = q := by
  simp only [times?, ofNat, Nat.add_zero, h] at hy
  obtain ⟨k, hk, rfl⟩ := Option.map_eq_some_iff.mp hy
  have hle : k ≤ x.scale := Nat.le_of_lt_succ (List.mem_range.mp (List.mem_of_find?_eq_some hk))
  simp only [whole, roundEven_shift hle]
  exact Nat.mul_div_cancel q (tenTo_pos (x.scale - k))

/-- A product is found as soon as some number of its digits can be dropped. -/
theorem exists_times?_of_fits {x : Decimal} {n k : Nat} (hk : k ≤ x.scale)
    (h : fits (x.mantissa * n) x.scale k = true) : ∃ y, x.times? (ofNat n) = some y := by
  have hsome : ((List.range (x.scale + 1)).find? (fits (x.mantissa * n) x.scale)).isSome = true :=
    List.find?_isSome.mpr ⟨k, List.mem_range.mpr (Nat.lt_succ_of_le hk), h⟩
  obtain ⟨j, hj⟩ := Option.isSome_iff_exists.mp hsome
  simp only [times?, ofNat, Nat.add_zero, hj, Option.map_some]
  exact ⟨_, rfl⟩

/-- Such a product is found if the number has room. -/
theorem times?_whole {x : Decimal} {n q : Nat} (h : x.mantissa * n = q * tenTo x.scale)
    (hq : q ≤ maxMantissa) : ∃ y, x.times? (ofNat n) = some y ∧ y.whole = q := by
  have hlast : fits (x.mantissa * n) x.scale x.scale = true := by
    simp [fits, h, roundEven_shift le_rfl, tenTo_zero, hq]
  obtain ⟨y, hy⟩ := exists_times?_of_fits le_rfl hlast
  exact ⟨y, hy, whole_of_times? h hy⟩

end Solvency.Decimal
