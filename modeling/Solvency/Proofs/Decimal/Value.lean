import Solvency.Proofs.Decimal.Digits

/-! # The numbers that decimals stand for

A decimal stands for its mantissa over a power of ten, with its sign. A result without room gives up
digits, but only where it has to: whatever is the number of some decimal is computed exactly. To move
the point to the right never loses a digit.
-/
namespace Solvency.Decimal

def magnitude (x : Decimal) : ℚ := x.mantissa / 10 ^ x.scale

def sign (negative : Bool) : ℚ := if negative then -1 else 1

def value (x : Decimal) : ℚ := sign x.negative * x.magnitude

structure Bounded (x : Decimal) : Prop where
  mantissa_le : x.mantissa ≤ maxMantissa
  scale_le : x.scale ≤ maxScale

/-- The number of a decimal that has room. -/
def Representable (q : ℚ) : Prop := ∃ x : Decimal, x.Bounded ∧ x.value = q

variable {x y : Decimal} {n k : Nat}

theorem magnitude_nonneg (x : Decimal) : 0 ≤ x.magnitude := by
  unfold magnitude
  positivity

theorem abs_value (x : Decimal) : |x.value| = x.magnitude := by
  rw [value, abs_mul, abs_of_nonneg x.magnitude_nonneg]
  cases hx : x.negative <;> simp [sign]

theorem isBelowZero_iff (x : Decimal) : x.isBelowZero = true ↔ x.value < 0 := by
  have hpow : (0 : ℚ) < 10 ^ x.scale := by positivity
  obtain ⟨negative, mantissa, scale⟩ := x
  cases negative
  · simpa [isBelowZero, value, sign] using magnitude_nonneg _
  · simp [isBelowZero, value, sign, magnitude, Nat.pos_iff_ne_zero]

/-- A number that is not below zero is its magnitude. -/
theorem value_of_nonneg (h : 0 ≤ x.value) : x.value = x.magnitude := by
  rw [← abs_value, abs_of_nonneg h]

theorem exists_of_representable {q : ℚ} {p s : Nat} (h : Representable q)
    (hq : |q| = (p : ℚ) / 10 ^ s) : ∃ a b, a ≤ maxMantissa ∧ b ≤ maxScale ∧ p * 10 ^ b = a * 10 ^ s := by
  obtain ⟨x, hx, rfl⟩ := h
  refine ⟨x.mantissa, x.scale, hx.mantissa_le, hx.scale_le, ?_⟩
  rw [abs_value, magnitude, div_eq_div_iff (by positivity) (by positivity)] at hq
  exact_mod_cast hq.symm

/-- What stands before the point is the number rounded down. -/
theorem whole_eq_floor (x : Decimal) : x.whole = ⌊x.magnitude⌋₊ := by
  have hcast : ((10 : ℚ) ^ x.scale) = ((tenTo x.scale : Nat) : ℚ) := by
    simp [tenTo]
  rw [magnitude, hcast, Nat.floor_div_eq_div]
  rfl

theorem whole_bounds (h : 0 ≤ x.value) : (x.whole : ℚ) ≤ x.value ∧ x.value < x.whole + 1 := by
  rw [whole_eq_floor, value_of_nonneg h]
  exact ⟨Nat.floor_le x.magnitude_nonneg, Nat.lt_floor_add_one _⟩

theorem magnitude_le (hx : x.Bounded) : x.magnitude ≤ maxMantissa := by
  rw [magnitude, div_le_iff₀ (by positivity)]
  have hm : x.mantissa ≤ maxMantissa * 10 ^ x.scale :=
    hx.mantissa_le.trans (Nat.le_mul_of_pos_right _ (tenTo_pos x.scale))
  exact_mod_cast hm

/-- As few digits as possible are dropped from the end of an exact product. -/
theorem times?_eq_some (h : x.times? (ofNat n) = some y) :
    ∃ k ≤ x.scale, y = ⟨x.negative, roundEven (x.mantissa * n) (tenTo k), x.scale - k⟩ ∧
      y.Bounded ∧ ∀ j, fits (x.mantissa * n) x.scale j = true → k ≤ j := by
  simp only [times?, ofNat, Nat.add_zero, Bool.bne_false] at h
  obtain ⟨k, hk, rfl⟩ := Option.map_eq_some_iff.mp h
  obtain ⟨hfits, hle, hleast⟩ := List.find?_range_eq_some.mp hk
  obtain ⟨hscale, hmantissa⟩ := (Bool.and_eq_true _ _).mp hfits
  refine ⟨k, Nat.le_of_lt_succ (List.mem_range.mp hle), rfl,
    ⟨of_decide_eq_true hmantissa, of_decide_eq_true hscale⟩, ?_⟩
  intro j hj
  by_contra hlt
  have hnot := hleast j (Nat.lt_of_not_le hlt)
  rw [hj] at hnot
  cases hnot

theorem fits_of_eq_mul {p q s j : Nat} (hp : p = q * tenTo j) (hq : q ≤ maxMantissa)
    (hs : s - j ≤ maxScale) : fits p s j = true := by
  subst hp
  simp [fits, roundEven_mul q (tenTo_pos j), hq, hs]

/-- Digits that are zero can be dropped. -/
theorem value_dropped {p s : Nat} (hk : k ≤ s) (hd : tenTo k ∣ p) (negative : Bool) :
    value ⟨negative, p / tenTo k, s - k⟩ = sign negative * ((p : ℚ) / 10 ^ s) := by
  obtain ⟨q, rfl⟩ := hd
  have hsplit : (10 : ℚ) ^ s = 10 ^ k * 10 ^ (s - k) := by rw [← pow_add, Nat.add_sub_cancel' hk]
  have hcast : ((tenTo k : Nat) : ℚ) = 10 ^ k := by simp [tenTo]
  rw [Nat.mul_div_cancel_left q (tenTo_pos k), value, magnitude, hsplit, Nat.cast_mul, hcast]
  field_simp

theorem roundEven_of_dvd {p d : Nat} (hd : 0 < d) (h : d ∣ p) : roundEven p d = p / d := by
  obtain ⟨q, rfl⟩ := h
  rw [Nat.mul_div_cancel_left q hd, Nat.mul_comm, roundEven_mul q hd]

theorem value_mul (x : Decimal) (n : Nat) :
    x.value * n = sign x.negative * (((x.mantissa * n : Nat) : ℚ) / 10 ^ x.scale) := by
  rw [value, magnitude, Nat.cast_mul]
  ring

theorem abs_value_mul (x : Decimal) (n : Nat) :
    |x.value * n| = ((x.mantissa * n : Nat) : ℚ) / 10 ^ x.scale := by
  rw [abs_mul, abs_value, Nat.abs_cast, magnitude, Nat.cast_mul]
  ring

theorem tenTo_dvd_tenTo {j : Nat} (h : k ≤ j) : tenTo k ∣ tenTo j :=
  ⟨tenTo (j - k), by rw [← tenTo_add, Nat.add_sub_cancel' h]⟩

/-- A number over `s` places that has room with fewer places ends in zeros. -/
theorem eq_mul_tenTo {p s a b : Nat} (hb : b ≤ s) (h : p * 10 ^ b = a * 10 ^ s) :
    p = a * tenTo (s - b) := by
  apply Nat.eq_of_mul_eq_mul_right (tenTo_pos b)
  rw [Nat.mul_assoc a, ← tenTo_add, Nat.sub_add_cancel hb]
  exact h

/-- A product that has room is exact. -/
theorem times?_exact (h : x.times? (ofNat n) = some y) (hr : Representable (x.value * n)) :
    y.value = x.value * n := by
  obtain ⟨k, hk, rfl, _, hleast⟩ := times?_eq_some h
  obtain ⟨a, b, ha, hb, he⟩ := exists_of_representable hr (abs_value_mul x n)
  have hd : tenTo k ∣ x.mantissa * n := by
    rcases Nat.le_total b x.scale with hle | hle
    · have hp := eq_mul_tenTo hle he
      have hfits : fits (x.mantissa * n) x.scale (x.scale - b) = true :=
        fits_of_eq_mul hp ha (by omega)
      rw [hp]
      exact (tenTo_dvd_tenTo (hleast _ hfits)).trans (Nat.dvd_mul_left _ _)
    · -- `a` has more places than the product, which is therefore no greater than `a`
      have hp : x.mantissa * n ≤ a := by
        apply Nat.le_of_mul_le_mul_right _ (tenTo_pos x.scale)
        have hpow : tenTo x.scale ≤ tenTo b := Nat.pow_le_pow_right (by decide) hle
        exact (Nat.mul_le_mul_left _ hpow).trans he.le
      have hfits : fits (x.mantissa * n) x.scale 0 = true :=
        fits_of_eq_mul (Nat.mul_one _).symm (hp.trans ha) (by omega)
      obtain rfl := Nat.le_zero.mp (hleast 0 hfits)
      exact Nat.one_dvd _
  rw [roundEven_of_dvd (tenTo_pos k) hd, value_dropped hk hd, value_mul]

/-- Nothing is lost in a product with a power of ten. -/
theorem times?_tenTo {j : Nat} (hx : x.Bounded) (h : x.times? (ofNat (tenTo j)) = some y) :
    y.value = x.value * 10 ^ j ∧ y.Bounded := by
  obtain ⟨k, hk, rfl, hy, hleast⟩ := times?_eq_some h
  have hfits : fits (x.mantissa * tenTo j) x.scale j = true :=
    fits_of_eq_mul rfl hx.mantissa_le ((Nat.sub_le _ _).trans hx.scale_le)
  have hd : tenTo k ∣ x.mantissa * tenTo j :=
    (tenTo_dvd_tenTo (hleast j hfits)).trans (Nat.dvd_mul_left _ _)
  refine ⟨?_, hy⟩
  rw [roundEven_of_dvd (tenTo_pos k) hd, value_dropped hk hd, ← value_mul]
  simp [tenTo]

theorem value_div (x : Decimal) (n : Nat) :
    x.value / 10 ^ n = sign x.negative * ((x.mantissa : ℚ) / 10 ^ (x.scale + n)) := by
  rw [value, magnitude, pow_add]
  field_simp

theorem abs_value_div (x : Decimal) (n : Nat) :
    |x.value / 10 ^ n| = (x.mantissa : ℚ) / 10 ^ (x.scale + n) := by
  rw [abs_div, abs_value, magnitude, abs_of_nonneg (by positivity), pow_add, div_div]

/-- Half of the last place kept does not matter to a quotient without a remainder. -/
theorem half_up_of_dvd {p : Nat} (hk : 0 < k) (hd : tenTo k ∣ p) :
    (p + 5 * tenTo (k - 1)) / tenTo k = p / tenTo k := by
  have hhalf : 5 * tenTo (k - 1) < tenTo k := by
    obtain ⟨j, rfl⟩ := Nat.exists_eq_add_one.mpr hk
    have hj := tenTo_pos j
    rw [Nat.add_sub_cancel, tenTo_succ]
    omega
  obtain ⟨q, rfl⟩ := hd
  rw [Nat.mul_add_div (tenTo_pos k), Nat.div_eq_of_lt hhalf, Nat.add_zero,
    Nat.mul_div_cancel_left q (tenTo_pos k)]

/-- A quotient by a power of ten that has room is exact. -/
theorem shrink_exact (h : x.shrink n = some y) (hr : Representable (x.value / 10 ^ n)) :
    y.value = x.value / 10 ^ n := by
  unfold shrink at h
  split at h
  · cases h
  · split at h
    · cases h
      exact (value_div x n).symm
    · rename_i hroom
      cases h
      obtain ⟨a, b, _, hb, he⟩ := exists_of_representable hr (abs_value_div x n)
      have hp := eq_mul_tenTo (by omega) he
      generalize hk : x.scale + n - maxScale = k
      have hd : tenTo k ∣ x.mantissa := by
        rw [hp]
        exact (tenTo_dvd_tenTo (by omega)).trans (Nat.dvd_mul_left _ _)
      have hscale : maxScale = x.scale + n - k := by omega
      rw [half_up_of_dvd (by omega) hd, value_div, hscale]
      exact value_dropped (by omega) hd x.negative

theorem shrink_bounded (hx : x.Bounded) (h : x.shrink n = some y) : y.Bounded := by
  unfold shrink at h
  split at h
  · cases h
  · split at h
    · rename_i hroom
      cases h
      exact ⟨hx.mantissa_le, hroom⟩
    · rename_i hroom
      cases h
      obtain ⟨j, hj⟩ : ∃ j, x.scale + n - maxScale = j + 1 := ⟨_, (Nat.sub_add_cancel (by omega)).symm⟩
      refine ⟨Nat.div_le_of_le_mul ?_, le_rfl⟩
      have hm : x.mantissa ≤ tenTo j * maxMantissa :=
        hx.mantissa_le.trans (Nat.le_mul_of_pos_left _ (tenTo_pos j))
      have ht : tenTo j ≤ tenTo j * maxMantissa := Nat.le_mul_of_pos_right _ (by decide)
      rw [hj, Nat.add_sub_cancel, tenTo_succ, Nat.mul_right_comm]
      omega

theorem grow_exact (hx : x.Bounded) (h : x.grow n = some y) :
    y.value = x.value * 10 ^ n ∧ y.Bounded := by
  unfold grow at h
  split at h
  · rename_i hn
    cases h
    have hsplit : (10 : ℚ) ^ x.scale = 10 ^ (x.scale - n) * 10 ^ n := by
      rw [← pow_add, Nat.sub_add_cancel hn]
    refine ⟨?_, hx.mantissa_le, (Nat.sub_le x.scale n).trans hx.scale_le⟩
    rw [value, value, magnitude, magnitude, hsplit]
    field_simp
  · split at h
    · cases h
    · obtain ⟨z, hz, h⟩ := Option.bind_eq_some_iff.mp h
      obtain ⟨hv, hb⟩ := times?_tenTo hx hz
      split at h
      · rename_i hn
        cases h
        exact ⟨by rw [hv, min_eq_left hn], hb⟩
      · rename_i hn
        obtain ⟨hw, hy⟩ := times?_tenTo hb h
        refine ⟨?_, hy⟩
        rw [hw, hv, min_eq_right (by omega), mul_assoc, ← pow_add, Nat.add_sub_cancel' (by omega)]

theorem roundEven_le {p q d : Nat} (hd : 0 < d) (h : p ≤ q * d) : roundEven p d ≤ q := by
  have hdiv := Nat.div_add_mod p d
  have hmod := Nat.mod_lt p hd
  have hq : p / d ≤ q := Nat.div_le_of_le_mul (by rwa [Nat.mul_comm])
  unfold roundEven
  dsimp only
  split
  · rename_i hup
    have hne : p / d ≠ q := by
      rintro rfl
      rw [Nat.mul_comm] at h
      omega
    omega
  · exact hq

/-- A product whose whole part has room is found. -/
theorem exists_times? (h : |x.value * n| ≤ maxMantissa) : ∃ y, x.times? (ofNat n) = some y := by
  rw [abs_value_mul, div_le_iff₀ (by positivity)] at h
  have hp : x.mantissa * n ≤ maxMantissa * tenTo x.scale := by
    simp only [tenTo, Nat.pow_eq]
    exact_mod_cast h
  have hfits : fits (x.mantissa * n) x.scale x.scale = true := by
    simp [fits, roundEven_le (tenTo_pos x.scale) hp]
  exact exists_times?_of_fits le_rfl hfits

theorem times?_tenTo_eq_some {j : Nat} (hx : x.Bounded) (hv : 0 ≤ x.value)
    (h : x.value * 10 ^ j ≤ maxMantissa) :
    (x.times? (ofNat (tenTo j))).map whole = some ⌊x.value * 10 ^ j⌋₊ := by
  have hcast : ((tenTo j : Nat) : ℚ) = 10 ^ j := by simp [tenTo]
  have hnonneg : 0 ≤ x.value * 10 ^ j := by positivity
  have habs : |x.value * (tenTo j : Nat)| ≤ maxMantissa := by rwa [hcast, abs_of_nonneg hnonneg]
  obtain ⟨y, hy⟩ := exists_times? habs
  have hvalue := (times?_tenTo hx hy).1
  rw [hy, Option.map_some, whole_eq_floor, ← hvalue, value_of_nonneg (hvalue ▸ hnonneg)]

theorem times?_tenTo_eq_none {j : Nat} (hx : x.Bounded) (h : maxMantissa < x.value * 10 ^ j) :
    x.times? (ofNat (tenTo j)) = none := by
  refine Option.eq_none_iff_forall_ne_some.mpr fun y hy => ?_
  obtain ⟨hvalue, hbounded⟩ := times?_tenTo hx hy
  have hle : y.value ≤ maxMantissa :=
    (le_abs_self y.value).trans ((abs_value y).trans_le (magnitude_le hbounded))
  rw [hvalue] at hle
  exact absurd h hle.not_gt

end Solvency.Decimal
