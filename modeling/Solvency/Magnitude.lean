/-! # Magnitudes

Units are counted in words of sixty-four bits and values in words of one hundred and twenty-eight.
Decimal places are shifted by powers of ten.

A sum or product of values may pass the limit of their words without being looked at. What is kept
of it then is a matter of the arithmetic: the program keeps the lower bits, and numbers without
bound keep everything. Below the limit there is no difference.
-/
namespace Solvency

def wordLimit : Nat := Nat.pow 2 64

def valueLimit : Nat := Nat.pow 2 128

/-- How sums and products of values are kept: as they are below the limit, and from the limit on in
a way that sums do not depend on where it happened. A number that does not pass one that was kept is
kept as it is. -/
class Arithmetic where
  keep : Nat → Nat
  keep_of_lt : ∀ {n : Nat}, n < valueLimit → keep n = n
  keep_of_le : ∀ {m n : Nat}, n ≤ keep m → keep n = n
  keep_keep_add : ∀ m n : Nat, keep (keep m + n) = keep (m + n)

namespace Arithmetic

/-- Nothing is lost. -/
abbrev unbounded : Arithmetic := ⟨fun n => n, fun _ => rfl, fun _ => rfl, fun _ _ => rfl⟩

/-- What passes the limit of a word is lost. -/
abbrev wrapping : Arithmetic where
  keep n := n % valueLimit
  keep_of_lt := Nat.mod_eq_of_lt
  keep_of_le h := Nat.mod_eq_of_lt (Nat.lt_of_le_of_lt h (Nat.mod_lt _ (by decide)))
  keep_keep_add m n := Nat.mod_add_mod m valueLimit n

end Arithmetic

/-- The arithmetic of the program, whose values are words. -/
instance : Arithmetic := .wrapping

/-- The nearest value that has a word. -/
def saturate (n : Nat) : Nat := min n (valueLimit - 1)

def tenTo (n : Nat) : Nat := Nat.pow 10 n

theorem tenTo_zero : tenTo 0 = 1 := rfl

theorem tenTo_succ (n : Nat) : tenTo (n + 1) = tenTo n * 10 := rfl

theorem tenTo_pos (n : Nat) : 0 < tenTo n := by
  induction n with
  | zero => decide
  | succ n ih =>
    rw [tenTo_succ]
    omega

theorem tenTo_add (m n : Nat) : tenTo (m + n) = tenTo m * tenTo n := by
  induction n with
  | zero => rw [tenTo_zero, Nat.mul_one, Nat.add_zero]
  | succ n ih => rw [← Nat.add_assoc, tenTo_succ, tenTo_succ, ih, Nat.mul_assoc]

theorem saturate_le (n : Nat) : saturate n ≤ n := Nat.min_le_left _ _

theorem saturate_of_lt {n : Nat} (h : n < valueLimit) : saturate n = n :=
  Nat.min_eq_left (Nat.le_sub_one_of_lt h)

end Solvency
