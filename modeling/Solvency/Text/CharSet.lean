/-! # Sets of characters

A set is the list of its maximal runs of code points, each written with both ends.
-/
namespace Solvency.Text

abbrev CharSet := List (Nat × Nat)

def CharSet.has (s : CharSet) (c : Char) : Bool :=
  s.any fun run => run.1 ≤ c.toNat && c.toNat ≤ run.2

end Solvency.Text
