/-! # Whole numbers in digits

`digits` and `hexDigits` write a number without leading zeros. `natural?` reads a decimal one below
a limit; leading zeros and one plus sign are accepted, a minus sign and separators are not.
-/
namespace Solvency.Text

def digitValue (c : Char) : Nat := c.toNat - '0'.toNat

def ofDigits (cs : List Char) : Nat := Nat.ofDigitChars 10 cs 0

def digits (n : Nat) : List Char := Nat.toDigits 10 n

@[simp] theorem ofDigits_digits (n : Nat) : ofDigits (digits n) = n := Nat.ofDigitChars_ten_toDigits

theorem digits_ne_nil (n : Nat) : digits n ≠ [] := Nat.toDigits_ne_nil

theorem isDigit_of_mem_digits {n : Nat} {c : Char} (h : c ∈ digits n) : c.isDigit = true :=
  Nat.isDigit_of_mem_toDigits (by decide) (by decide) h

def hexDigits (n : Nat) : List Char := Nat.toDigits 16 n

def isHexDigit (c : Char) : Bool :=
  c.isDigit || ('a' ≤ c && c ≤ 'f') || ('A' ≤ c && c ≤ 'F')

def withoutPlus (cs : List Char) : List Char :=
  match cs with
  | '+' :: rest => rest
  | _ => cs

def natural? (limit : Nat) (cs : List Char) : Option Nat :=
  let ds := withoutPlus cs
  if ds ≠ [] ∧ ds.all Char.isDigit ∧ ofDigits ds < limit then some (ofDigits ds) else none

end Solvency.Text
