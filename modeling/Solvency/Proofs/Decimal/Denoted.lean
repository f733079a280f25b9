import Solvency.Proofs.Decimal.Places
import Solvency.Proofs.Decimal.Value

/-! # What a text denotes

The number of a text is that of all its digits, over the places behind the point and times a power
of ten if there is one. As many digits as are there count, whether or not a decimal has room for them. A
text whose number, and whose digits in front of the exponent, have room is read as that number.
-/
namespace Solvency.Decimal
open Text

variable {x y : Decimal} {cs ds : List Char} {n : Nat}

/-- The digits of the text behind those of `x`, with no bound on either. -/
def continued (x : Decimal) (cs : List Char) (places : Nat) : Decimal where
  negative := x.negative
  mantissa := Nat.ofDigitChars 10 (cs.filter Char.isDigit) x.mantissa
  scale := x.scale + places

/-- Every digit of the text is a further place. -/
def extended (x : Decimal) (cs : List Char) : Decimal := x.continued cs (cs.countP Char.isDigit)

/-- All digits of a text without an exponent. -/
def written (cs : List Char) : Decimal := continued ⟨isMinus cs, 0, 0⟩ cs (places cs)

/-- What stands in front of the exponent. -/
def base (cs : List Char) : List Char := cs.takeWhile (!isExponentMark ·)

/-- The whole number of digits that a sign may precede. -/
def signed : List Char → ℤ
  | '-' :: ds => -ofDigits (withoutPlus ds)
  | ds => ofDigits (withoutPlus ds)

def exponent (cs : List Char) : ℤ := signed (cs.dropWhile (!isExponentMark ·)).tail

def denoted (cs : List Char) : ℚ := (written (base cs)).value * 10 ^ exponent cs

theorem continued_digit {c : Char} {p : Nat} (hc : c.isDigit = true) :
    x.continued (c :: cs) p =
      ⟨x.negative, Nat.ofDigitChars 10 (cs.filter Char.isDigit) (10 * x.mantissa + digitValue c),
        x.scale + p⟩ := by
  rw [continued, List.filter_cons_of_pos hc, Nat.ofDigitChars_cons]
  rfl

theorem ofDigits_cons (c : Char) (ds : List Char) :
    ofDigits (c :: ds) = tenTo ds.length * digitValue c + ofDigits ds := by
  rw [ofDigits, Nat.ofDigitChars_cons, Nat.mul_zero, Nat.zero_add,
    Nat.ofDigitChars_eq_ofDigitChars_zero]
  rfl

theorem ofDigits_lt (hd : ∀ c ∈ ds, c.isDigit = true) : ofDigits ds < tenTo ds.length := by
  induction ds with
  | nil => decide
  | cons c ds ih =>
    have hc := digitValue_le (hd c List.mem_cons_self)
    have hlt := ih fun d hd' => hd d (List.mem_cons_of_mem c hd')
    have hmul := Nat.mul_le_mul_left (tenTo ds.length) hc
    rw [ofDigits_cons, List.length_cons, tenTo_succ]
    omega

/-- Digits behind the last place that has room are zeros. -/
theorem eq_zero_of_le {m r a b s l : Nat} (hr : r < tenTo l) (hb : b ≤ s)
    (h : (tenTo l * m + r) * 10 ^ b = a * 10 ^ (s + l)) : r = 0 := by
  have hp := eq_mul_tenTo (by omega) h
  have hd : tenTo l ∣ tenTo l * m + r := by
    rw [hp]
    exact (tenTo_dvd_tenTo (by omega)).trans (Nat.dvd_mul_left _ _)
  exact Nat.eq_zero_of_dvd_of_lt ((Nat.dvd_add_right (Nat.dvd_mul_right _ _)).mp hd) hr

/-- Where one more place than `s` leaves no room, a decimal of the same number has at most `s`. -/
theorem places_le_of_full {p a b s l : Nat} (ha : a ≤ maxMantissa)
    (hfull : maxMantissa * tenTo l < p * 10) (h : p * 10 ^ b = a * 10 ^ (s + l)) : b ≤ s := by
  by_contra hb
  have hpow : (10 : Nat) ^ (s + 1) ≤ 10 ^ b := Nat.pow_le_pow_right (by decide) (by omega)
  have hle : p * 10 ^ (s + 1) ≤ a * 10 ^ (s + l) := (Nat.mul_le_mul_left p hpow).trans_eq h
  have hshort : p * 10 ≤ a * 10 ^ l := by
    apply Nat.le_of_mul_le_mul_right _ (tenTo_pos s)
    calc
      p * 10 * tenTo s = p * 10 ^ (s + 1) := by rw [Nat.mul_assoc, Nat.mul_comm 10]; rfl
      _ ≤ a * 10 ^ (s + l) := hle
      _ = a * 10 ^ l * tenTo s := by rw [Nat.add_comm, Nat.pow_add, ← Nat.mul_assoc]; rfl
  exact absurd ((hshort.trans (Nat.mul_le_mul_right _ ha)).trans_lt hfull) (lt_irrefl _)

theorem length_filter_isDigit (cs : List Char) :
    (cs.filter Char.isDigit).length = cs.countP Char.isDigit := List.countP_eq_length_filter.symm

theorem mantissa_extended (x : Decimal) (cs : List Char) :
    (x.extended cs).mantissa =
      tenTo (cs.countP Char.isDigit) * x.mantissa + ofDigits (cs.filter Char.isDigit) := by
  rw [extended, continued, Nat.ofDigitChars_eq_ofDigitChars_zero, length_filter_isDigit]
  rfl

/-- Zeros at the end of the places do not count. -/
theorem value_extended_zeros (hz : ofDigits (cs.filter Char.isDigit) = 0) :
    (x.extended cs).value = x.value := by
  have hm := mantissa_extended x cs
  have hs : (x.extended cs).scale = x.scale + cs.countP Char.isDigit := rfl
  generalize cs.countP Char.isDigit = l at hm hs
  have hdrop := value_dropped (Nat.le_add_left l x.scale) (Nat.dvd_mul_right _ x.mantissa) x.negative
  rw [Nat.mul_div_cancel_left _ (tenTo_pos l), Nat.add_sub_cancel] at hdrop
  rw [hz, Nat.add_zero] at hm
  rw [value, magnitude, hm, hs]
  exact hdrop.symm

/-- Where no further digit has room, all that follow are zeros. -/
theorem ofDigits_eq_zero (hr : Representable (x.extended cs).value)
    (hfull : x.scale < maxScale →
      maxMantissa * tenTo (cs.countP Char.isDigit) < (x.extended cs).mantissa * 10) :
    ofDigits (cs.filter Char.isDigit) = 0 := by
  obtain ⟨a, b, ha, hb, he⟩ := exists_of_representable hr (abs_value _)
  have hle : b ≤ x.scale := by
    rcases Nat.lt_or_ge x.scale maxScale with hs | hs
    · exact places_le_of_full ha (hfull hs) he
    · exact hb.trans hs
  have hlt : ofDigits (cs.filter Char.isDigit) < tenTo (cs.countP Char.isDigit) := by
    rw [← length_filter_isDigit]
    exact ofDigits_lt fun _ hc => (List.mem_filter.mp hc).2
  rw [mantissa_extended] at he
  exact eq_zero_of_le hlt hle he

theorem extended_kept {c : Char} (hc : c.isDigit = true) :
    x.extended (c :: cs) =
      extended { x with mantissa := 10 * x.mantissa + digitValue c, scale := x.scale + 1 } cs := by
  rw [extended, continued_digit hc, List.countP_cons_of_pos hc, extended, continued,
    Nat.add_comm _ 1, Nat.add_assoc]

theorem lt_mantissa_extended {c : Char} (hc : c.isDigit = true)
    (h : maxMantissa < 10 * x.mantissa + digitValue c) :
    maxMantissa * tenTo ((c :: cs).countP Char.isDigit) < (x.extended (c :: cs)).mantissa * 10 := by
  have hlt := Nat.mul_lt_mul_of_pos_left h (tenTo_pos (cs.countP Char.isDigit))
  rw [mantissa_extended, List.countP_cons_of_pos hc, List.filter_cons_of_pos hc, ofDigits_cons,
    length_filter_isDigit, tenTo_succ]
  calc
    maxMantissa * (tenTo (cs.countP Char.isDigit) * 10)
      = tenTo (cs.countP Char.isDigit) * maxMantissa * 10 := by ring
    _ < tenTo (cs.countP Char.isDigit) * (10 * x.mantissa + digitValue c) * 10 := by omega
    _ ≤ (tenTo (cs.countP Char.isDigit) * 10 * x.mantissa +
          (tenTo (cs.countP Char.isDigit) * digitValue c +
            ofDigits (cs.filter Char.isDigit))) * 10 := by
        rw [Nat.mul_add, ← Nat.mul_assoc]
        omega

/-- Behind the point, digits are passed over only if they are zeros. -/
theorem FractionRead.exact (h : FractionRead x cs y) (hx : x.Bounded)
    (hr : Representable (x.extended cs).value) :
    y.value = (x.extended cs).value := by
  induction h with
  | done => rfl
  | skip _ ih => exact ih hx hr
  | keep hc hs hm _ ih =>
    rw [extended_kept hc] at hr ⊢
    exact ih ⟨hm, hs⟩ hr
  | @round x y c cs hc hfull _ h =>
    have hz := ofDigits_eq_zero hr fun hs => lt_mantissa_extended hc (hfull hs)
    rw [value_extended_zeros hz]
    have hc0 : digitValue c = 0 := by
      rw [List.filter_cons_of_pos hc, ofDigits_cons] at hz
      exact (Nat.mul_eq_zero.mp (Nat.add_eq_zero_iff.mp hz).1).resolve_left (tenTo_pos _).ne'
    rw [hc0, roundBy_zero hx.mantissa_le] at h
    cases h
    rfl
  | stop hs _ =>
    exact (value_extended_zeros (ofDigits_eq_zero hr fun h => absurd hs h.not_ge)).symm

theorem FractionRead.bounded (h : FractionRead x cs y) (hx : x.Bounded) : y.Bounded := by
  induction h with
  | done => exact hx
  | skip _ ih => exact ih hx
  | keep _ hs hm _ ih => exact ih ⟨hm, hs⟩
  | round _ _ _ h =>
    obtain ⟨_, hs, hm⟩ := roundBy_eq_some h
    exact ⟨hm hx.mantissa_le, hs.trans hx.scale_le⟩
  | stop => exact hx

theorem WholeRead.exact (h : WholeRead x cs y) (hx : x.Bounded)
    (hr : Representable (x.continued cs (places cs)).value) :
    y.value = (x.continued cs (places cs)).value := by
  induction h with
  | done => rfl
  | point h =>
    rw [places_point] at hr ⊢
    exact h.exact hx hr
  | skip _ ih =>
    rw [places_cons (by decide)] at hr ⊢
    exact ih hx hr
  | keep hc hm _ ih =>
    rw [places_cons (by rintro rfl; cases hc), continued_digit hc] at hr ⊢
    exact ih ⟨hm, hx.scale_le⟩ hr

theorem WholeRead.bounded (h : WholeRead x cs y) (hx : x.Bounded) : y.Bounded := by
  induction h with
  | done => exact hx
  | point h => exact h.bounded hx
  | skip _ ih => exact ih hx
  | keep _ hm _ ih => exact ih ⟨hm, hx.scale_le⟩

theorem zero_bounded (negative : Bool) : Bounded ⟨negative, 0, 0⟩ := ⟨Nat.zero_le _, Nat.zero_le _⟩

theorem readPlain_bounded (h : readPlain cs = some y) : y.Bounded :=
  (wholeRead_of_readPlain h).bounded (zero_bounded _)

/-- Whatever is read has room, rounded or not. -/
theorem read_bounded (h : read cs = some y) : y.Bounded := by
  rcases Option.or_eq_some_iff.mp h with hplain | ⟨_, hscientific⟩
  · exact readPlain_bounded hplain
  · unfold readScientific at hscientific
    split at hscientific
    · cases hscientific
    · obtain ⟨x, hx, h⟩ := Option.bind_eq_some_iff.mp hscientific
      have hbounded := readPlain_bounded hx
      split at h
      · obtain ⟨_, _, h⟩ := Option.bind_eq_some_iff.mp h
        exact shrink_bounded hbounded h
      · obtain ⟨_, _, h⟩ := Option.bind_eq_some_iff.mp h
        exact (grow_exact hbounded h).2

theorem filter_withoutSign (cs : List Char) :
    (withoutSign cs).filter Char.isDigit = cs.filter Char.isDigit := by
  rcases withoutSign_cases cs with h | ⟨c, hc, h⟩
  · rw [h]
  · have hdigit : ¬ c.isDigit = true := by rcases hc with rfl | rfl <;> decide
    conv_rhs => rw [h, List.filter_cons_of_neg hdigit]

theorem written_eq (cs : List Char) :
    written cs = continued ⟨isMinus cs, 0, 0⟩ (withoutSign cs) (places (withoutSign cs)) := by
  rw [written, continued, continued, filter_withoutSign, places_withoutSign]

theorem readPlain_exact (h : readPlain cs = some y) (hr : Representable (written cs).value) :
    y.value = (written cs).value := by
  rw [written_eq] at hr ⊢
  exact (wholeRead_of_readPlain h).exact (zero_bounded _) hr

/-- Without an exponent a text denotes the number of its digits. -/
theorem denoted_of_plain (h : ∀ c ∈ cs, (!isExponentMark c) = true) :
    base cs = cs ∧ denoted cs = (written cs).value := by
  have hbase : base cs = cs := List.takeWhile_eq_self_iff.mpr h
  refine ⟨hbase, ?_⟩
  have hexponent : exponent cs = 0 := by
    rw [exponent, List.dropWhile_eq_nil_iff.mpr h]
    rfl
  rw [denoted, hbase, hexponent, zpow_zero, mul_one]

theorem natural?_eq_some {limit : Nat} (h : natural? limit cs = some n) :
    n = ofDigits (withoutPlus cs) := by
  unfold natural? at h
  dsimp only at h
  split at h
  · exact (Option.some.inj h).symm
  · cases h

theorem readScientific_exact (h : readScientific cs = some y)
    (hb : Representable (written (base cs)).value) (hr : Representable (denoted cs)) :
    y.value = denoted cs := by
  unfold readScientific at h
  unfold denoted exponent at hr ⊢
  split at h
  · cases h
  · rename_i hmark
    obtain ⟨x, hx, h⟩ := Option.bind_eq_some_iff.mp h
    have hv : x.value = (written (base cs)).value := readPlain_exact hx hb
    rw [hmark, List.tail_cons, ← hv] at hr ⊢
    split at h
    · obtain ⟨n, hn, h⟩ := Option.bind_eq_some_iff.mp h
      rw [signed, ← natural?_eq_some hn, zpow_neg, zpow_natCast, ← div_eq_mul_inv] at hr ⊢
      exact shrink_exact h hr
    · rename_i hminus
      obtain ⟨n, hn, h⟩ := Option.bind_eq_some_iff.mp h
      rw [signed.eq_2 _ hminus, ← natural?_eq_some hn, zpow_natCast]
      exact (grow_exact (readPlain_bounded hx) h).1

/-- A text whose digits and number have room is read as the number that it denotes. -/
theorem read_exact (h : read cs = some y) (hb : Representable (written (base cs)).value)
    (hr : Representable (denoted cs)) : y.value = denoted cs := by
  rcases Option.or_eq_some_iff.mp h with hplain | ⟨_, hscientific⟩
  · obtain ⟨hbase, hdenoted⟩ := denoted_of_plain (not_isExponentMark_of_readPlain hplain)
    rw [hbase] at hb
    rw [hdenoted]
    exact readPlain_exact hplain hb
  · exact readScientific_exact hscientific hb hr

end Solvency.Decimal
