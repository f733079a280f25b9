import Solvency.Proofs.Decimal.Digits

/-! # How decimals are read

A decimal is read digit by digit, and every step that succeeds is one of a few: a digit is kept, an
underscore is skipped, or the first digit without room ends the reading with a rounding. What is read
after a sign, in front of the point and behind it, is described by these steps alone.
-/
namespace Solvency.Decimal
open Text

variable {x y : Decimal} {cs : List Char}

/-- Rounding keeps the sign, adds no place and leaves a mantissa that has room. -/
theorem roundBy_eq_some {d : Nat} (h : roundBy x d = some y) :
    y.negative = x.negative ∧ y.scale ≤ x.scale ∧
      (x.mantissa ≤ maxMantissa → y.mantissa ≤ maxMantissa) := by
  unfold roundBy at h
  generalize hm : (if 5 ≤ d then x.mantissa + 1 else x.mantissa) = mantissa at h
  have hle : mantissa ≤ x.mantissa + 1 := by
    split at hm <;> omega
  dsimp only at h
  split at h
  · rename_i hfit
    cases h
    exact ⟨rfl, le_rfl, fun _ => hfit⟩
  · split at h
    · cases h
    · cases h
      have hmax : 5 ≤ maxMantissa := by decide
      refine ⟨rfl, Nat.sub_le x.scale 1, fun hx => ?_⟩
      show (mantissa + 4) / 10 ≤ maxMantissa
      omega

theorem roundBy_zero (hx : x.mantissa ≤ maxMantissa) : roundBy x 0 = some x := if_pos hx

/-- From `x` on, reading what follows a point comes to `y`. -/
inductive FractionRead : Decimal → List Char → Decimal → Prop
  | done (x : Decimal) : FractionRead x [] x
  | skip {x y : Decimal} {cs : List Char} (h : FractionRead x cs y) : FractionRead x ('_' :: cs) y
  | keep {x y : Decimal} {c : Char} {cs : List Char} (hc : c.isDigit = true)
      (hs : x.scale < maxScale) (hm : 10 * x.mantissa + digitValue c ≤ maxMantissa)
      (h : FractionRead
        { x with mantissa := 10 * x.mantissa + digitValue c, scale := x.scale + 1 } cs y) :
      FractionRead x (c :: cs) y
  | round {x y : Decimal} {c : Char} {cs : List Char} (hc : c.isDigit = true)
      (hfull : x.scale < maxScale → maxMantissa < 10 * x.mantissa + digitValue c)
      (hcs : ∀ d ∈ cs, isFiller d = true) (h : roundBy x (digitValue c) = some y) :
      FractionRead x (c :: cs) y
  | stop {x : Decimal} {cs : List Char} (hs : maxScale ≤ x.scale)
      (hcs : ∀ d ∈ cs, isFiller d = true) : FractionRead x ('_' :: cs) x

theorem fractionRead_of_readFraction (h : readFraction x cs = some y) : FractionRead x cs y := by
  induction cs generalizing x with
  | nil =>
    cases h
    exact .done _
  | cons c cs ih =>
    rw [readFraction] at h
    split at h
    · rename_i hskip
      obtain ⟨rfl, _⟩ := hskip
      exact .skip (ih h)
    · rename_i hskip
      split at h
      · cases h
      · rename_i hfiller
        split at h
        · rename_i hu
          split at h
          · rename_i hcs
            have hs : maxScale ≤ x.scale := by
              by_contra hlt
              exact hskip ⟨hu, by simp [skipsUnderscore, Nat.lt_of_not_le hlt]⟩
            cases h
            exact hu ▸ .stop hs (List.all_eq_true.mp hcs)
          · cases h
        · rename_i hu
          have hc : c.isDigit = true := by simpa [isFiller, hu] using hfiller
          split at h
          · rename_i hroom
            exact .keep hc hroom.1 hroom.2 (ih h)
          · rename_i hroom
            split at h
            · rename_i hcs
              have hfull : x.scale < maxScale → maxMantissa < 10 * x.mantissa + digitValue c :=
                fun hs => Nat.lt_of_not_le fun hm => hroom ⟨hs, hm⟩
              exact .round hc hfull (List.all_eq_true.mp hcs) h
            · cases h

theorem isFiller_of_isDigit {c : Char} (hc : c.isDigit = true) : isFiller c = true := by
  simp [isFiller, hc]

theorem FractionRead.forall_isFiller (h : FractionRead x cs y) : ∀ c ∈ cs, isFiller c = true := by
  have hunder : isFiller '_' = true := rfl
  induction h with
  | done => simp
  | skip _ ih => exact List.forall_mem_cons.mpr ⟨hunder, ih⟩
  | keep hc _ _ _ ih => exact List.forall_mem_cons.mpr ⟨isFiller_of_isDigit hc, ih⟩
  | round hc _ hcs _ => exact List.forall_mem_cons.mpr ⟨isFiller_of_isDigit hc, hcs⟩
  | stop _ hcs => exact List.forall_mem_cons.mpr ⟨hunder, hcs⟩

/-- From `x` on, reading digits that a point may follow comes to `y`. -/
inductive WholeRead : Decimal → List Char → Decimal → Prop
  | done (x : Decimal) : WholeRead x [] x
  | point {x y : Decimal} {cs : List Char} (h : FractionRead x cs y) : WholeRead x ('.' :: cs) y
  | skip {x y : Decimal} {cs : List Char} (h : WholeRead x cs y) : WholeRead x ('_' :: cs) y
  | keep {x y : Decimal} {c : Char} {cs : List Char} (hc : c.isDigit = true)
      (hm : 10 * x.mantissa + digitValue c ≤ maxMantissa)
      (h : WholeRead { x with mantissa := 10 * x.mantissa + digitValue c } cs y) :
      WholeRead x (c :: cs) y

theorem wholeRead_of_readWhole (h : readWhole x cs = some y) : WholeRead x cs y := by
  induction cs generalizing x with
  | nil =>
    cases h
    exact .done _
  | cons c cs ih =>
    rw [readWhole] at h
    split at h
    · rename_i hc
      exact hc ▸ .point (fractionRead_of_readFraction h)
    · split at h
      · rename_i hc
        exact hc ▸ .skip (ih h)
      · split at h
        · rename_i hroom
          exact .keep hroom.1 hroom.2 (ih h)
        · cases h

theorem digitValue_le {c : Char} (h : c.isDigit = true) : digitValue c ≤ 9 := by
  simp only [Char.isDigit, Bool.and_eq_true, decide_eq_true_eq] at h
  have hh : c.toNat ≤ 57 := h.2
  have h0 : '0'.toNat = 48 := rfl
  unfold digitValue
  omega

/-- A first digit always has room, so that reading begins like it goes on. -/
theorem wholeRead_of_readUnsigned {negative : Bool} (h : readUnsigned negative cs = some y) :
    WholeRead ⟨negative, 0, 0⟩ cs y := by
  cases cs with
  | nil => cases h
  | cons c cs =>
    rw [readUnsigned] at h
    split at h
    · rename_i hc
      have hm : 10 * 0 + digitValue c ≤ maxMantissa := by
        rw [Nat.mul_zero, Nat.zero_add]
        exact (digitValue_le hc).trans (by decide)
      refine .keep hc hm ?_
      simpa using wholeRead_of_readWhole h
    · split at h
      · rename_i hc
        exact hc.1 ▸ .point (fractionRead_of_readFraction h)
      · cases h

def isMinus (cs : List Char) : Bool := cs.head? == some '-'

def withoutSign : List Char → List Char
  | '-' :: cs => cs
  | '+' :: cs => cs
  | cs => cs

theorem isMinus_cons (c : Char) (cs : List Char) : isMinus (c :: cs) = (c == '-') := rfl

theorem readPlain_eq (cs : List Char) : readPlain cs = readUnsigned (isMinus cs) (withoutSign cs) := by
  unfold readPlain
  split
  · rfl
  · rfl
  · rename_i hminus hplus
    have hfalse : isMinus cs = false := by
      cases cs with
      | nil => rfl
      | cons c cs =>
        rw [isMinus_cons]
        exact beq_false_of_ne fun h => hminus cs (h ▸ rfl)
    rw [hfalse, withoutSign.eq_3 cs hminus hplus]

theorem withoutSign_cases (cs : List Char) :
    withoutSign cs = cs ∨ ∃ c, (c = '-' ∨ c = '+') ∧ cs = c :: withoutSign cs := by
  unfold withoutSign
  split
  · exact .inr ⟨'-', .inl rfl, rfl⟩
  · exact .inr ⟨'+', .inr rfl, rfl⟩
  · exact .inl rfl

theorem wholeRead_of_readPlain (h : readPlain cs = some y) :
    WholeRead ⟨isMinus cs, 0, 0⟩ (withoutSign cs) y :=
  wholeRead_of_readUnsigned (readPlain_eq cs ▸ h)

theorem not_isExponentMark {c : Char} (h : isFiller c = true) : (!isExponentMark c) = true := by
  rcases (Bool.or_eq_true _ _).mp h with hc | hc
  · simp [isExponentMark, isDigit_ne hc (show 'e'.isDigit = false by decide),
      isDigit_ne hc (show 'E'.isDigit = false by decide)]
  · rw [beq_iff_eq.mp hc]
    decide

theorem WholeRead.forall_not_isExponentMark (h : WholeRead x cs y) :
    ∀ c ∈ cs, (!isExponentMark c) = true := by
  induction h with
  | done => simp
  | point h =>
    exact List.forall_mem_cons.mpr
      ⟨by decide, fun c hc => not_isExponentMark (h.forall_isFiller c hc)⟩
  | skip _ ih => exact List.forall_mem_cons.mpr ⟨by decide, ih⟩
  | keep hc _ _ ih =>
    exact List.forall_mem_cons.mpr ⟨not_isExponentMark (isFiller_of_isDigit hc), ih⟩

theorem not_isExponentMark_of_readPlain (h : readPlain cs = some y) :
    ∀ c ∈ cs, (!isExponentMark c) = true := by
  have hrest := (wholeRead_of_readPlain h).forall_not_isExponentMark
  rcases withoutSign_cases cs with hs | ⟨c, hc, hs⟩
  · rwa [hs] at hrest
  · rw [hs]
    refine List.forall_mem_cons.mpr ⟨?_, hrest⟩
    rcases hc with rfl | rfl <;> decide

end Solvency.Decimal
