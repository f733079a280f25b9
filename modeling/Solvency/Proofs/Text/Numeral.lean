import Solvency.Account
import Solvency.Proofs.Text.Trim

/-! # Numbers of accounts in digits

A number below a limit is read back from its decimal digits. The id of an account whose number is a
word consists of exactly sixty-four hexadecimal digits in lower case, and their value is the number,
so that no two numbers have the same id.
-/
namespace Solvency.Text

theorem not_mem_digits {n : Nat} {c : Char} (h : c.isDigit = false) : c ∉ digits n := by
  intro hc
  rw [isDigit_of_mem_digits hc] at h
  cases h

theorem withoutPlus_digits (n : Nat) : withoutPlus (digits n) = digits n := by
  unfold withoutPlus
  split
  · rename_i rest h
    have hplus : '+' ∈ digits n := h ▸ List.mem_cons_self
    exact absurd hplus (not_mem_digits (by decide))
  · rfl

theorem natural?_digits {limit n : Nat} (h : n < limit) : natural? limit (digits n) = some n := by
  have hall : (digits n).all Char.isDigit = true :=
    List.all_eq_true.mpr fun _ => isDigit_of_mem_digits
  simp only [natural?, withoutPlus_digits, ofDigits_digits]
  exact if_pos ⟨digits_ne_nil n, hall, h⟩

theorem trimmed_digits (n : Nat) : Trimmed (digits n) :=
  Trimmed.of_forall fun _ hc => isBlank_of_isDigit (isDigit_of_mem_digits hc)

theorem toList_toString (n : Nat) : (toString n).toList = digits n := Nat.toList_repr

theorem exists_of_mem_hexDigits {n : Nat} {c : Char} (hc : c ∈ hexDigits n) :
    ∃ d < 16, Nat.digitChar d = c := by
  induction n using Nat.strong_induction_on with
  | _ n ih =>
    unfold hexDigits at hc ih
    by_cases hn : n < 16
    · rw [Nat.toDigits_of_lt_base hn, List.mem_singleton] at hc
      exact ⟨n, hn, hc.symm⟩
    · rw [Nat.toDigits_of_base_le (by decide) (Nat.not_lt.mp hn)] at hc
      rcases List.mem_append.mp hc with hc | hc
      · exact ih (n / 16) (by omega) hc
      · rw [List.mem_singleton] at hc
        exact ⟨n % 16, Nat.mod_lt n (by decide), hc.symm⟩

def isLowerHexDigit (c : Char) : Bool := c.isDigit || ('a' ≤ c && c ≤ 'f')

theorem isHexDigit_of_isLowerHexDigit {c : Char} (h : isLowerHexDigit c = true) :
    isHexDigit c = true := by
  unfold isLowerHexDigit at h
  rw [isHexDigit, h, Bool.true_or]

theorem isLowerHexDigit_of_mem_hexDigits {n : Nat} {c : Char} (hc : c ∈ hexDigits n) :
    isLowerHexDigit c = true := by
  obtain ⟨d, hd, rfl⟩ := exists_of_mem_hexDigits hc
  interval_cases d <;> rfl

/-- The value of a digit in lower case. -/
def hexDigitValue (c : Char) : Nat :=
  if c.isDigit then c.toNat - '0'.toNat else c.toNat - 'a'.toNat + 10

def ofHexDigits (cs : List Char) : Nat := cs.foldl (fun n c => 16 * n + hexDigitValue c) 0

theorem hexDigitValue_digitChar {d : Nat} (h : d < 16) : hexDigitValue (Nat.digitChar d) = d := by
  interval_cases d <;> rfl

theorem ofHexDigits_concat (cs : List Char) (c : Char) :
    ofHexDigits (cs ++ [c]) = 16 * ofHexDigits cs + hexDigitValue c := by
  rw [ofHexDigits, List.foldl_append]
  rfl

@[simp] theorem ofHexDigits_hexDigits (n : Nat) : ofHexDigits (hexDigits n) = n := by
  induction n using Nat.strong_induction_on with
  | _ n ih =>
    unfold hexDigits at ih ⊢
    by_cases hn : n < 16
    · rw [Nat.toDigits_of_lt_base hn, ← List.nil_append [_], ofHexDigits_concat,
        hexDigitValue_digitChar hn]
      exact Nat.zero_add n
    · rw [Nat.toDigits_of_base_le (by decide) (Nat.not_lt.mp hn), ofHexDigits_concat,
        ih (n / 16) (by omega), hexDigitValue_digitChar (Nat.mod_lt n (by decide)), Nat.div_add_mod]

/-- Zeros in front of a number do not change it. -/
theorem ofHexDigits_leftpad (width : Nat) (cs : List Char) :
    ofHexDigits (cs.leftpad width '0') = ofHexDigits cs := by
  unfold List.leftpad ofHexDigits
  rw [List.foldl_append]
  congr 1
  induction width - cs.length with
  | zero => rfl
  | succ k ih => rwa [List.replicate_succ, List.foldl_cons]

theorem isBlank_of_isHexDigit {c : Char} (h : isHexDigit c = true) : isBlank c = false := by
  simp only [isHexDigit, Bool.or_eq_true, Bool.and_eq_true, decide_eq_true_eq] at h
  rcases h with (h | ⟨hl, hh⟩) | ⟨hl, hh⟩
  · exact isBlank_of_isDigit h
  · have hl' : 97 ≤ c.toNat := hl
    have hh' : c.toNat ≤ 102 := hh
    simp [isBlank, CharSet.has, blank]
    omega
  · have hl' : 65 ≤ c.toNat := hl
    have hh' : c.toNat ≤ 70 := hh
    simp [isBlank, CharSet.has, blank]
    omega

end Solvency.Text

namespace Solvency
open Text

theorem isLowerHexDigit_of_mem_idText {index : Nat} {c : Char} (hc : c ∈ (idText index).toList) :
    isLowerHexDigit c = true := by
  rw [idText, String.toList_ofList, List.leftpad] at hc
  rcases List.mem_append.mp hc with hc | hc
  · rw [List.eq_of_mem_replicate hc]
    decide
  · exact isLowerHexDigit_of_mem_hexDigits hc

theorem isHexDigit_of_mem_idText {index : Nat} {c : Char} (hc : c ∈ (idText index).toList) :
    isHexDigit c = true :=
  isHexDigit_of_isLowerHexDigit (isLowerHexDigit_of_mem_idText hc)

theorem ofHexDigits_idText (index : Nat) : ofHexDigits (idText index).toList = index := by
  rw [idText, String.toList_ofList, ofHexDigits_leftpad, ofHexDigits_hexDigits]

theorem idText_injective : Function.Injective idText := by
  intro m n h
  rw [← ofHexDigits_idText m, h, ofHexDigits_idText]

theorem length_idText {index : Nat} (h : index < wordLimit) :
    (idText index).toList.length = idDigits := by
  have hl : (hexDigits index).length ≤ 16 :=
    (Nat.length_toDigits_le_iff (by decide) (by decide)).mpr h
  rw [idText, String.toList_ofList, List.leftpad, List.length_append, List.length_replicate]
  unfold idDigits
  omega

theorem trimmed_idText (index : Nat) : Trimmed (idText index).toList :=
  Trimmed.of_forall fun _ hc => isBlank_of_isHexDigit (isHexDigit_of_mem_idText hc)

end Solvency
