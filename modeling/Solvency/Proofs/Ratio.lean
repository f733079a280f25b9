import Mathlib
import Solvency.Ratio

/-! # Rounded quotients

What is rounded up is the least number that reaches the exact quotient, and what is rounded down the
greatest that stays within it. A ratio of at least one therefore never lessens the units it is
rounded up from, and one of at most one never adds to those it is rounded down from.
-/
namespace Solvency

theorem narrow_eq_ok {computation : Computation} {n k : Nat} :
    narrow computation n = .ok k ↔ n < wordLimit ∧ n = k := by
  unfold narrow
  split <;> simp [*]

theorem narrow_eq_error {computation : Computation} {n : Nat} {fault : Fault} :
    narrow computation n = .error fault ↔ wordLimit ≤ n ∧ fault = .overflow computation := by
  unfold narrow
  split
  · simp [*]
  · rename_i hn
    simp only [Except.error.injEq, Nat.not_lt.mp hn, true_and, eq_comm]

theorem lt_of_narrow {computation : Computation} {n k : Nat} (h : narrow computation n = .ok k) :
    k < wordLimit := by
  obtain ⟨hlt, rfl⟩ := narrow_eq_ok.mp h
  exact hlt

theorem le_divUp_mul {d : Nat} (hd : 0 < d) (n : Nat) : n ≤ divUp n d * d := by
  have hdiv := Nat.div_add_mod (n + d - 1) d
  have hmod := Nat.mod_lt (n + d - 1) hd
  unfold divUp
  rw [Nat.mul_comm]
  omega

theorem isGreatest_div {d : Nat} (hd : 0 < d) (n : Nat) : IsGreatest {k | k * d ≤ n} (n / d) := by
  constructor
  · exact Nat.div_mul_le_self n d
  · intro k hk
    exact (Nat.le_div_iff_mul_le hd).mpr hk

theorem isLeast_divUp {d : Nat} (hd : 0 < d) (n : Nat) : IsLeast {k | n ≤ k * d} (divUp n d) := by
  constructor
  · exact le_divUp_mul hd n
  · intro k hk
    have hk : n ≤ k * d := hk
    have hlt : n + d - 1 < (k + 1) * d := by
      rw [Nat.succ_mul]
      omega
    exact Nat.le_of_lt_succ ((Nat.div_lt_iff_lt_mul hd).mpr hlt)

theorem divUp_le_iff {d : Nat} (hd : 0 < d) {n k : Nat} : divUp n d ≤ k ↔ n ≤ k * d := by
  constructor
  · intro h
    exact (le_divUp_mul hd n).trans (Nat.mul_le_mul_right d h)
  · intro h
    exact (isLeast_divUp hd n).2 h

theorem divUp_mul_lt {d : Nat} (hd : 0 < d) (n : Nat) : divUp n d * d < n + d := by
  have h := Nat.div_mul_le_self (n + d - 1) d
  unfold divUp
  omega

theorem div_le_divUp {d : Nat} (hd : 0 < d) (n : Nat) : n / d ≤ divUp n d :=
  Nat.le_of_mul_le_mul_right ((isGreatest_div hd n).1.trans (isLeast_divUp hd n).1) hd

theorem divUp_le_succ {d : Nat} (hd : 0 < d) (n : Nat) : divUp n d ≤ n / d + 1 := by
  apply (isLeast_divUp hd n).2
  show n ≤ (n / d + 1) * d
  rw [Nat.mul_comm]
  exact (Nat.lt_mul_div_succ n hd).le

/-- Rounding down and up agree where nothing is rounded. -/
theorem div_eq_divUp {d : Nat} (hd : 0 < d) (n : Nat) : n / d = divUp n d ↔ d ∣ n := by
  constructor
  · intro h
    have hup : n ≤ divUp n d * d := (isLeast_divUp hd n).1
    rw [← h] at hup
    exact ⟨n / d, by rw [Nat.mul_comm]; exact hup.antisymm (Nat.div_mul_le_self n d)⟩
  · rintro ⟨k, rfl⟩
    apply (div_le_divUp hd _).antisymm
    apply (isLeast_divUp hd _).2
    show d * k ≤ d * k / d * d
    rw [Nat.mul_div_cancel_left k hd, Nat.mul_comm]

/-- A computation comes to `n` if that fits a word, and fails with an overflow if it does not. -/
structure Narrowed (computation : Computation) (n : Nat) (x : Except Fault Nat) : Prop where
  eq_ok : ∀ k, x = .ok k ↔ n < wordLimit ∧ n = k
  eq_error : ∀ fault, x = .error fault ↔ wordLimit ≤ n ∧ fault = .overflow computation

theorem narrowed_narrow (computation : Computation) (n : Nat) :
    Narrowed computation n (narrow computation n) :=
  ⟨fun _ => narrow_eq_ok, fun _ => narrow_eq_error⟩

namespace Ratio
variable {r : Ratio} {units n : Nat}

theorem isGreatest_of_floor (hd : 0 < r.denominator) (h : r.floor units = .ok n) :
    IsGreatest {k | k * r.denominator ≤ units * r.numerator} n := by
  obtain ⟨_, rfl⟩ := narrow_eq_ok.mp h
  exact isGreatest_div hd _

theorem isLeast_of_ceil (hd : 0 < r.denominator) (h : r.ceil units = .ok n) :
    IsLeast {k | units * r.numerator ≤ k * r.denominator} n := by
  obtain ⟨_, rfl⟩ := narrow_eq_ok.mp h
  exact isLeast_divUp hd _

/-- A ratio of at least one does not lessen what is rounded up. -/
theorem le_of_isLeast (hd : 0 < r.denominator) (hr : r.denominator ≤ r.numerator)
    (h : IsLeast {k | units * r.numerator ≤ k * r.denominator} n) : units ≤ n :=
  Nat.le_of_mul_le_mul_right ((Nat.mul_le_mul_left units hr).trans h.1) hd

/-- A ratio of at most one does not increase what is rounded down. -/
theorem le_of_isGreatest (hd : 0 < r.denominator) (hr : r.numerator ≤ r.denominator)
    (h : IsGreatest {k | k * r.denominator ≤ units * r.numerator} n) : n ≤ units :=
  Nat.le_of_mul_le_mul_right (h.1.trans (Nat.mul_le_mul_left units hr)) hd

end Ratio

end Solvency
