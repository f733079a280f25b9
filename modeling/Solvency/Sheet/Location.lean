import Solvency.Sheet.Record

/-! # Where a record begins

A record begins behind the byte that ended the one before it; blank lines and the second half of a
two-byte line break belong to the record they stand before.
-/
namespace Solvency.Sheet

/-- The offsets behind each record, held backwards, and what has been passed. -/
structure Survey where
  scan : Scan
  offset : Nat
  ends : List Nat

def Survey.step (s : Survey) (b : UInt8) : Survey :=
  let scan := s.scan.step b
  let offset := s.offset + 1
  let ended := s.scan.place ≠ .lineStart ∧ scan.place = .lineStart
  ⟨scan, offset, if ended then offset :: s.ends else s.ends⟩

def recordEnds (bytes : Bytes) : List Nat :=
  let content := withoutMark bytes
  (content.foldl Survey.step ⟨.start, bytes.length - content.length, []⟩).ends.reverse

structure Location where
  record : Nat
  line : Nat
  byte : Nat
deriving DecidableEq

/-- Where the record in a row begins; the header is record zero. -/
def locate (bytes : Bytes) (row : Nat) : Location :=
  let record := row - headerRow
  let byte := (0 :: recordEnds bytes)[record]?.getD 0
  ⟨record, 1 + (bytes.take byte).count lineFeed, byte⟩

end Solvency.Sheet
