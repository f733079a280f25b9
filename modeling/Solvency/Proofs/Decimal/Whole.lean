import Solvency.Proofs.Decimal.Digits
import Solvency.Proofs.Decimal.Places

/-! # Whole numbers without a point

Digits alone are read as the number that they write if it has room in a mantissa, and are not read
at all otherwise.
-/
namespace Solvency.Decimal
open Text

theorem readWhole_eq_none {x : Decimal} {ds : List Char} (hd : ∀ c ∈ ds, c.isDigit = true)
    (hx : x.mantissa ≤ maxMantissa) (hm : maxMantissa < Nat.ofDigitChars 10 ds x.mantissa) :
    readWhole x ds = none := by
  induction ds generalizing x with
  | nil => exact absurd hx (Nat.not_le.mpr hm)
  | cons c ds ih =>
    have hc := hd c List.mem_cons_self
    rw [Nat.ofDigitChars_cons] at hm
    rw [readWhole, if_neg (isDigit_ne hc (by decide)), if_neg (isDigit_ne hc (by decide))]
    by_cases hfit : 10 * x.mantissa + digitValue c ≤ maxMantissa
    · rw [if_pos ⟨hc, hfit⟩]
      exact ih (fun d hd' => hd d (List.mem_cons_of_mem c hd')) hfit hm
    · exact if_neg fun h => hfit h.2

theorem readPlain_digits (n : Nat) :
    readPlain (digits n) = if n ≤ maxMantissa then some ⟨false, n, 0⟩ else none := by
  obtain ⟨c, cs, he⟩ := List.exists_cons_of_ne_nil (digits_ne_nil n)
  have hd : ∀ d ∈ c :: cs, d.isDigit = true := fun d h => isDigit_of_mem_digits (he ▸ h)
  have hc := hd c List.mem_cons_self
  have hcs : ∀ d ∈ cs, d.isDigit = true := fun d h => hd d (List.mem_cons_of_mem c h)
  have hv : Nat.ofDigitChars 10 cs (digitValue c) = n := by
    have hn := ofDigits_digits n
    rw [he, ofDigits, Nat.ofDigitChars_cons] at hn
    simpa [digitValue] using hn
  rw [he, readPlain_digit hc]
  split
  · rename_i hn
    have hread : readWhole ⟨false, digitValue c, 0⟩ (cs ++ []) = _ :=
      readWhole_digits hcs (hv.trans_le hn)
    rw [List.append_nil, hv] at hread
    exact hread
  · rename_i hn
    have hfirst : digitValue c ≤ maxMantissa := (digitValue_le hc).trans (by decide)
    exact readWhole_eq_none hcs hfirst (hv ▸ Nat.lt_of_not_le hn)

theorem read_whole (n : Nat) :
    read (digits n) = if n ≤ maxMantissa then some ⟨false, n, 0⟩ else none := by
  have hmarks : ∀ c ∈ digits n, (!isExponentMark c) = true := fun c hc =>
    not_isExponentMark (isFiller_of_isDigit (isDigit_of_mem_digits hc))
  rw [read, readScientific_eq_none hmarks, Option.or_none, readPlain_digits]

end Solvency.Decimal
