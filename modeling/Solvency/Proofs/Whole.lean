import Mathlib
import Solvency.Magnitude

/-! # What is kept whole

Arithmetic keeps no more of a number than there is, and of a sum it keeps the same however its terms
were kept before. A number of which nothing is lost is whole: so is every number below the limit,
everything below a whole number, and in numbers without bound simply everything. In words that wrap
around the whole numbers are those with room for them.
-/
namespace Solvency
open Arithmetic

section Kept
variable [Arithmetic] {m n : Nat}

theorem keep_zero : keep 0 = 0 := keep_of_lt (by decide)

theorem keep_add_keep (m n : Nat) : keep (m + keep n) = keep (m + n) := by
  rw [Nat.add_comm, keep_keep_add, Nat.add_comm]

theorem keep_le (n : Nat) : keep n ≤ n := by
  by_contra h
  have hkept : keep n = n := keep_of_le (Nat.le_of_not_le h)
  exact h hkept.le

/-- Nothing of the number is lost. -/
def Whole (n : Nat) : Prop := keep n = n

instance (n : Nat) : Decidable (Whole n) := inferInstanceAs (Decidable (keep n = n))

theorem whole_of_lt (h : n < valueLimit) : Whole n := keep_of_lt h

theorem Whole.of_le (h : Whole n) (hm : m ≤ n) : Whole m := keep_of_le (hm.trans h.ge)

/-- With nothing lost of the larger number, the order is kept. -/
theorem Whole.keep_mono (h : Whole n) (hm : m ≤ n) : keep m ≤ keep n :=
  (keep_le m).trans (hm.trans h.ge)

end Kept

theorem whole_unbounded (n : Nat) : @Whole .unbounded n := rfl

theorem whole_wrapping {n : Nat} : @Whole .wrapping n ↔ n < valueLimit := by
  constructor
  · intro h
    rw [← h]
    exact Nat.mod_lt n (by decide)
  · exact @whole_of_lt .wrapping n

end Solvency
