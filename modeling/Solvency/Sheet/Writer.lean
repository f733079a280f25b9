import Solvency.Fault
import Solvency.Sheet.Record

/-! # Writing sheets

Cells are divided by commas and every record ends with a line feed. A cell is quoted when it holds
a comma, a quote or a line break, and a quote inside it is then written twice. All records have the
length of the first.
-/
namespace Solvency.Sheet

def needsQuotes (cs : List Char) : Bool :=
  cs.any fun c => c == ',' || c == '"' || c == '\r' || c == '\n'

def doubleQuote (c : Char) : List Char := if c = '"' then ['"', '"'] else [c]

def writeCell (text : String) : List Char :=
  if needsQuotes text.toList then '"' :: text.toList.flatMap doubleQuote ++ ['"'] else text.toList

def writeRecord (cells : List String) : List Char :=
  [','].intercalate (cells.map writeCell) ++ ['\n']

/-- The text of a record, which must have `width` cells. -/
def writeRow (width : Nat) (cells : List String) (row : Nat) : Except Fault (List Char) :=
  if cells.length = width then .ok (writeRecord cells)
  else .error (.ragged row cells.length width)

def write (header : List String) (rows : List (List String)) : Except Fault String := do
  let texts ← (rows.zipIdx firstDataRow).mapM fun (cells, row) => writeRow header.length cells row
  return String.ofList (writeRecord header ++ texts.flatten)

end Solvency.Sheet
