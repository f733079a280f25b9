import Solvency.Proofs.Decimal.Denoted

/-! # Rounded texts

Digits without room round what is read, but only where room for them is used up. No number with as few
places as are left is passed on the way, so that a small text is read as a number between the two
whole ones next to what it denotes.
-/
namespace Solvency.Decimal
open Text

/-- No whole number lies between the two. -/
structure Beside (q r : ℚ) : Prop where
  up : ∀ n : ℕ, n ≤ q → n ≤ r
  down : ∀ n : ℕ, q ≤ n → r ≤ n

theorem Beside.refl (q : ℚ) : Beside q q := ⟨fun _ => id, fun _ => id⟩

theorem Beside.floor_bounds {q r : ℚ} (h : Beside q r) (hq : 0 ≤ q) :
    ⌊q⌋₊ ≤ ⌊r⌋₊ ∧ ⌊r⌋₊ ≤ ⌈q⌉₊ :=
  ⟨Nat.le_floor (h.up _ (Nat.floor_le hq)), Nat.floor_le_of_le (h.down _ (Nat.le_ceil q))⟩

variable {x y : Decimal} {cs : List Char} {n e : Nat}

theorem magnitude_mul (he : e ≤ x.scale) :
    x.magnitude * 10 ^ e = x.mantissa / (tenTo (x.scale - e) : ℕ) := by
  have hsplit : (10 : ℚ) ^ x.scale = 10 ^ (x.scale - e) * 10 ^ e := by
    rw [← pow_add, Nat.sub_add_cancel he]
  have hcast : ((tenTo (x.scale - e) : ℕ) : ℚ) = 10 ^ (x.scale - e) := by simp [tenTo]
  rw [magnitude, hsplit, hcast]
  field_simp

theorem natCast_le_magnitude (he : e ≤ x.scale) :
    (n : ℚ) ≤ x.magnitude * 10 ^ e ↔ n * tenTo (x.scale - e) ≤ x.mantissa := by
  rw [magnitude_mul he, le_div_iff₀ (by exact_mod_cast tenTo_pos _)]
  exact_mod_cast Iff.rfl

theorem magnitude_le_natCast (he : e ≤ x.scale) :
    x.magnitude * 10 ^ e ≤ n ↔ x.mantissa ≤ n * tenTo (x.scale - e) := by
  rw [magnitude_mul he, div_le_iff₀ (by exact_mod_cast tenTo_pos _)]
  exact_mod_cast Iff.rfl

/-- What is read for the number of all digits: that number, or one beside it on every scale with no
more places, and in that case no room is left for another place. -/
inductive Rounded (x : Decimal) : Decimal → Prop
  | exact : Rounded x x
  | near {y : Decimal} (hfull : y.scale < maxScale → maxMantissa ≤ 10 * y.mantissa + 9)
      (h : ∀ e ≤ y.scale, Beside (x.magnitude * 10 ^ e) (y.magnitude * 10 ^ e)) : Rounded x y

/-- A mantissa without room for another digit is a large number when the point is moved behind all
places and once more. -/
theorem wordLimit_le_of_full (hfull : maxMantissa ≤ 10 * x.mantissa + 9) (he : x.scale < e) :
    (wordLimit : ℚ) ≤ x.magnitude * 10 ^ e := by
  have hroom : wordLimit + 9 ≤ maxMantissa := by decide
  have hword : wordLimit ≤ x.mantissa * 10 := by omega
  have hpow : (10 : ℚ) ^ (x.scale + 1) ≤ 10 ^ e := pow_le_pow_right₀ (by norm_num) he
  calc
    (wordLimit : ℚ) ≤ (x.mantissa * 10 : ℕ) := by exact_mod_cast hword
    _ = x.magnitude * 10 ^ (x.scale + 1) := by
      rw [magnitude, pow_succ]
      field_simp
      push_cast
      ring
    _ ≤ x.magnitude * 10 ^ e := mul_le_mul_of_nonneg_left hpow x.magnitude_nonneg

/-- What is small on the scale has used up its room behind the point, not in front of it. -/
theorem Rounded.beside (h : Rounded x y) (he : e ≤ maxScale)
    (hsmall : y.magnitude * 10 ^ e < wordLimit) :
    Beside (x.magnitude * 10 ^ e) (y.magnitude * 10 ^ e) := by
  cases h with
  | exact => exact .refl _
  | near hfull h =>
    apply h
    by_contra hlt
    have hlarge := wordLimit_le_of_full (hfull (by omega)) (Nat.lt_of_not_le hlt)
    exact absurd hlarge hsmall.not_ge

/-- A whole number up to that of all digits is one up to that of the digits kept. -/
theorem le_mantissa_of_le (he : e ≤ x.scale) (hn : (n : ℚ) ≤ (x.extended cs).magnitude * 10 ^ e) :
    n * tenTo (x.scale - e) ≤ x.mantissa := by
  have hscale : (x.extended cs).scale - e = x.scale - e + cs.countP Char.isDigit := Nat.sub_add_comm he
  have hlt : ofDigits (cs.filter Char.isDigit) < tenTo (cs.countP Char.isDigit) := by
    rw [← length_filter_isDigit]
    exact ofDigits_lt fun _ hc => (List.mem_filter.mp hc).2
  rw [natCast_le_magnitude (he.trans (Nat.le_add_right _ _)), hscale, tenTo_add, mantissa_extended,
    ← Nat.mul_assoc, Nat.mul_comm _ (tenTo (cs.countP Char.isDigit))] at hn
  apply Nat.le_of_lt_succ
  apply Nat.lt_of_mul_lt_mul_left (a := tenTo (cs.countP Char.isDigit))
  rw [Nat.mul_succ]
  omega

theorem mantissa_le_of_le (he : e ≤ x.scale) (hn : (x.extended cs).magnitude * 10 ^ e ≤ n) :
    x.mantissa ≤ n * tenTo (x.scale - e) ∧
      (0 < ofDigits (cs.filter Char.isDigit) → x.mantissa < n * tenTo (x.scale - e)) := by
  have hscale : (x.extended cs).scale - e = x.scale - e + cs.countP Char.isDigit := Nat.sub_add_comm he
  rw [magnitude_le_natCast (he.trans (Nat.le_add_right _ _)), hscale, tenTo_add, mantissa_extended,
    ← Nat.mul_assoc, Nat.mul_comm _ (tenTo (cs.countP Char.isDigit))] at hn
  constructor
  · apply Nat.le_of_mul_le_mul_left _ (tenTo_pos (cs.countP Char.isDigit))
    omega
  · intro hpos
    apply Nat.lt_of_mul_lt_mul_left (a := tenTo (cs.countP Char.isDigit))
    omega

/-- Dropping digits passes no number with fewer places. -/
theorem beside_dropped (he : e ≤ x.scale) :
    Beside ((x.extended cs).magnitude * 10 ^ e) (x.magnitude * 10 ^ e) where
  up _ hn := (natCast_le_magnitude he).mpr (le_mantissa_of_le he hn)
  down _ hn := (magnitude_le_natCast he).mpr (mantissa_le_of_le he hn).1

theorem beside_raised (hpos : 0 < ofDigits (cs.filter Char.isDigit)) (hy : y.scale = x.scale)
    (hm : y.mantissa = x.mantissa + 1) (he : e ≤ y.scale) :
    Beside ((x.extended cs).magnitude * 10 ^ e) (y.magnitude * 10 ^ e) where
  up n hn := by
    have hle := le_mantissa_of_le (hy ▸ he) hn
    rw [natCast_le_magnitude he, hy, hm]
    omega
  down n hn := by
    have hlt := (mantissa_le_of_le (hy ▸ he) hn).2 hpos
    rw [magnitude_le_natCast he, hy, hm]
    omega

/-- A mantissa that has no room for one more gives up its last digit. -/
theorem beside_carried (hpos : 0 < ofDigits (cs.filter Char.isDigit)) (hy : x.scale = y.scale + 1)
    (hm : y.mantissa = (x.mantissa + 5) / 10) (he : e ≤ y.scale) :
    Beside ((x.extended cs).magnitude * 10 ^ e) (y.magnitude * 10 ^ e) := by
  have hx : e ≤ x.scale := by omega
  have hten (n : ℕ) : n * tenTo (x.scale - e) = n * tenTo (y.scale - e) * 10 := by
    rw [hy, Nat.sub_add_comm he, tenTo_succ, Nat.mul_assoc]
  constructor
  · intro n hn
    have hle := le_mantissa_of_le hx hn
    rw [hten] at hle
    rw [natCast_le_magnitude he, hm]
    omega
  · intro n hn
    have hlt := (mantissa_le_of_le hx hn).2 hpos
    rw [hten] at hlt
    rw [magnitude_le_natCast he, hm]
    omega

/-- A rounding digit is dropped, raises the mantissa or carries over the last digit kept. -/
theorem roundBy_cases {d : Nat} (hx : x.mantissa ≤ maxMantissa) (h : roundBy x d = some y) :
    y = x ∨ 0 < d ∧
      ((y.scale = x.scale ∧ y.mantissa = x.mantissa + 1) ∨
        (x.scale = y.scale + 1 ∧ x.mantissa = maxMantissa ∧ y.mantissa = (x.mantissa + 5) / 10)) := by
  unfold roundBy at h
  dsimp only at h
  by_cases hd : 5 ≤ d
  · right
    refine ⟨by omega, ?_⟩
    rw [if_pos hd] at h
    split at h
    · cases h
      exact .inl ⟨rfl, rfl⟩
    · rename_i hfull
      split at h
      · cases h
      · rename_i hscale
        cases h
        exact .inr ⟨by dsimp only; omega, by omega, rfl⟩
  · left
    rw [if_neg hd, if_pos hx] at h
    exact (Option.some.inj h).symm

theorem FractionRead.rounded (h : FractionRead x cs y) (hx : x.Bounded) :
    Rounded (x.extended cs) y := by
  induction h with
  | done x =>
    exact .exact
  | skip _ ih => exact ih hx
  | keep hc hs hm _ ih =>
    rw [extended_kept hc]
    exact ih ⟨hm, hs⟩
  | @round x y c cs hc hfull _ h =>
    have hdigit := digitValue_le hc
    rcases roundBy_cases hx.mantissa_le h with rfl | ⟨hd, hup⟩
    · exact .near (fun hs => by have := hfull hs; omega) fun e he => beside_dropped he
    · have hpos : 0 < ofDigits ((c :: cs).filter Char.isDigit) := by
        rw [List.filter_cons_of_pos hc, ofDigits_cons]
        exact Nat.add_pos_left (Nat.mul_pos (tenTo_pos _) hd) _
      rcases hup with ⟨hscale, hm⟩ | ⟨hscale, hlast, hm⟩
      · refine .near (fun hs => ?_) fun e he => beside_raised hpos hscale hm he
        have hlong := hfull (hscale ▸ hs)
        omega
      · refine .near (fun _ => ?_) fun e he => beside_carried hpos hscale hm he
        omega
  | stop hs _ => exact .near (fun h => absurd hs h.not_ge) fun e he => beside_dropped he

/-- In front of the point no digit is passed over. -/
theorem WholeRead.rounded (h : WholeRead x cs y) (hx : x.Bounded) :
    Rounded (x.continued cs (places cs)) y := by
  induction h with
  | done x => exact .exact
  | point h =>
    rw [places_point]
    exact h.rounded hx
  | skip _ ih =>
    rw [places_cons (by decide)]
    exact ih hx
  | keep hc hm _ ih =>
    rw [places_cons (by rintro rfl; cases hc), continued_digit hc]
    exact ih ⟨hm, hx.scale_le⟩

theorem readPlain_rounded (h : readPlain cs = some y) : Rounded (written cs) y := by
  rw [written_eq]
  exact (wholeRead_of_readPlain h).rounded (zero_bounded _)

theorem grow_le (hx : x.scale ≤ maxScale) (h : x.grow n = some y) : n ≤ maxScale := by
  unfold grow at h
  split at h
  · omega
  · split at h
    · cases h
    · omega

theorem isMinus_eq_false (h : '-' ∉ cs) : isMinus cs = false := by
  cases cs with
  | nil => rfl
  | cons c cs =>
    rw [isMinus_cons]
    exact beq_false_of_ne fun hc => h (hc ▸ List.mem_cons_self)

theorem value_written (h : '-' ∉ cs) : (written cs).value = (written cs).magnitude := by
  have hsign : (written cs).negative = false := isMinus_eq_false h
  rw [value, hsign, sign, if_neg Bool.false_ne_true, one_mul]

theorem magnitude_of_value_eq {y : Decimal} (h : y.value = x.value * 10 ^ n) :
    y.magnitude = x.magnitude * 10 ^ n := by
  rw [← abs_value, h, abs_mul, abs_value, abs_of_nonneg (by positivity)]

theorem readPlain_beside (h : readPlain cs = some y) (hminus : '-' ∉ cs)
    (hsmall : y.magnitude < wordLimit) : 0 ≤ denoted cs ∧ Beside (denoted cs) y.magnitude := by
  obtain ⟨_, hdenoted⟩ := denoted_of_plain (not_isExponentMark_of_readPlain h)
  have hbeside := (readPlain_rounded h).beside (Nat.zero_le maxScale) (by rwa [pow_zero, mul_one])
  rw [pow_zero, mul_one, mul_one] at hbeside
  rw [hdenoted, value_written hminus]
  exact ⟨magnitude_nonneg _, hbeside⟩

/-- The digits in front of an exponent are rounded before the point is moved behind them. -/
theorem readScientific_beside (h : readScientific cs = some y) (hminus : '-' ∉ cs)
    (hsmall : y.magnitude < wordLimit) : 0 ≤ denoted cs ∧ Beside (denoted cs) y.magnitude := by
  unfold readScientific at h
  split at h
  · cases h
  · rename_i mark power hmark
    have hbase : '-' ∉ base cs := fun hc => hminus (List.takeWhile_subset _ hc)
    have hpower : '-' ∉ power := by
      intro hc
      have hdrop := List.mem_cons_of_mem mark hc
      rw [← hmark] at hdrop
      exact hminus (List.dropWhile_subset _ hdrop)
    obtain ⟨x, hx, h⟩ := Option.bind_eq_some_iff.mp h
    split at h
    · exact absurd List.mem_cons_self hpower
    · rename_i hunsigned
      obtain ⟨n, hn, h⟩ := Option.bind_eq_some_iff.mp h
      have hbounded := readPlain_bounded hx
      have hmagnitude := magnitude_of_value_eq (grow_exact hbounded h).1
      have hdenoted : denoted cs = (written (base cs)).magnitude * 10 ^ n := by
        rw [denoted, exponent, hmark, List.tail_cons, signed.eq_2 _ hunsigned,
          ← natural?_eq_some hn, zpow_natCast, value_written hbase]
      rw [hmagnitude] at hsmall ⊢
      rw [hdenoted]
      exact ⟨mul_nonneg (magnitude_nonneg _) (by positivity),
        (readPlain_rounded hx).beside (grow_le hbounded.scale_le h) hsmall⟩

/-- Without a minus in front of the number or of its exponent, a text that is read as less than a word
denotes no number below zero, and one beside it. -/
theorem read_beside (h : read cs = some y) (hminus : '-' ∉ cs) (hsmall : y.magnitude < wordLimit) :
    0 ≤ denoted cs ∧ Beside (denoted cs) y.magnitude := by
  rcases Option.or_eq_some_iff.mp h with hplain | ⟨_, hscientific⟩
  · exact readPlain_beside hplain hminus hsmall
  · exact readScientific_beside hscientific hminus hsmall

end Solvency.Decimal
