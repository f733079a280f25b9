import Solvency.Proofs.Checked
import Solvency.Sheet.Cell

/-! # Faults and their rows

A fault names the row it was found in, if it names a row at all. A record that stands further down
has the same cells or the same fault, as many rows further down.
-/
namespace Solvency

/-- The row that a fault names. -/
def Fault.row? : Fault → Option Nat
  | .ragged row _ _ => some row
  | .undecodable row _ _ => some row
  | .shortRow row _ _ => some row
  | .bracket row _ _ => some row
  | .amount row _ _ => some row
  | .accountId row _ => some row
  | _ => none

/-- The same fault that many rows further down; one that names no row is left as it is. -/
def Fault.lowered (rows : Nat) : Fault → Fault
  | .ragged row fields expected => .ragged (row + rows) fields expected
  | .undecodable row field offset => .undecodable (row + rows) field offset
  | .shortRow row fields expected => .shortRow (row + rows) fields expected
  | .bracket row segment flaw => .bracket (row + rows) segment flaw
  | .amount row token text => .amount (row + rows) token text
  | .accountId row id => .accountId (row + rows) id
  | fault => fault

namespace Sheet

theorem cell_add (row rows : Nat) (field : Bytes) (index : Nat) :
    cell (row + rows) field index = (cell row field index).mapError (Fault.lowered rows) := by
  rw [cell, cell, mapError_elim]
  rfl

theorem cells_add (row rows : Nat) (record : Record) :
    cells (row + rows) record = (cells row record).mapError (Fault.lowered rows) := by
  simp only [cells, mapError_mapM, cell_add]

theorem length_of_cells {row : Nat} {record : Record} {texts : List String}
    (h : cells row record = .ok texts) : record.length = texts.length := by
  rw [← (mapM_eq_ok.mp h).length_eq, List.length_zipIdx]

theorem cellsOfWidth_eq_ok {width row : Nat} {record : Record} {texts : List String} :
    cellsOfWidth width row record = .ok texts ↔
      record.length = width ∧ cells row record = .ok texts := by
  unfold cellsOfWidth
  split
  · rename_i hwidth
    exact (and_iff_right hwidth).symm
  · rename_i hwidth
    simp [hwidth]

theorem cellsOfWidth_add (width row rows : Nat) (record : Record) :
    cellsOfWidth width (row + rows) record =
      (cellsOfWidth width row record).mapError (Fault.lowered rows) := by
  unfold cellsOfWidth
  split
  · exact cells_add row rows record
  · rfl

end Sheet
end Solvency
