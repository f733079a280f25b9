/-! # Splitting at a character

The pieces between the separators, in order; a text without the separator is its own only piece.
-/
namespace Solvency.Text

def splitOn (separator : Char) : List Char → List (List Char)
  | [] => [[]]
  | c :: cs =>
    if c = separator then [] :: splitOn separator cs
    else
      match splitOn separator cs with
      | [] => [[c]]
      | piece :: pieces => (c :: piece) :: pieces

end Solvency.Text
