import Solvency.Fault
import Solvency.Sheet.Record

/-! # Cells

A cell is a field whose bytes form a text. The first field of a record that does not is reported
with the length of its longest beginning that does.
-/
namespace Solvency.Sheet

def encode (text : String) : Bytes := text.toUTF8.data.toList

def decode? (field : Bytes) : Option String := String.fromUTF8? ⟨field.toArray⟩

@[simp] theorem decode?_encode (text : String) : decode? (encode text) = some text :=
  dif_pos text.isValidUTF8

def decodableLength (field : Bytes) : Nat :=
  ((List.range (field.length + 1)).reverse.find? fun k => (decode? (field.take k)).isSome).getD 0

def cell (row : Nat) (field : Bytes) (index : Nat) : Except Fault String :=
  (decode? field).elim (.error (.undecodable row index (decodableLength field))) .ok

def cells (row : Nat) (record : Record) : Except Fault (List String) :=
  record.zipIdx.mapM fun (field, index) => cell row field index

/-- The cells of a record that must be as long as the header. -/
def cellsOfWidth (width row : Nat) (record : Record) : Except Fault (List String) :=
  if record.length = width then cells row record
  else .error (.ragged row record.length width)

end Solvency.Sheet
