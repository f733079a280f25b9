/-! # Records of a sheet

A sheet is read byte by byte. Commas end fields, line breaks end records, and blank lines hold no
record. A field that opens with a quote runs to the next lone quote, commas and line breaks
included, and a doubled quote stands for one; what follows the closing quote belongs to the field
as it stands. The sheet's end completes whatever has been begun.
-/
namespace Solvency.Sheet

abbrev Bytes := List UInt8

abbrev Record := List Bytes

def comma : UInt8 := 44

def quotation : UInt8 := 34

def lineFeed : UInt8 := 10

def carriageReturn : UInt8 := 13

def isLineBreak (b : UInt8) : Bool := b == lineFeed || b == carriageReturn

inductive Place
  | lineStart
  | fieldStart
  | plain
  | quoted
  | closed
deriving DecidableEq

/-- What has been read: all three lists are held backwards. -/
structure Scan where
  place : Place
  field : Bytes
  record : Record
  records : List Record

namespace Scan

def start : Scan := ⟨.lineStart, [], [], []⟩

def push (s : Scan) (place : Place) (b : UInt8) : Scan :=
  { s with place := place, field := b :: s.field }

def endField (s : Scan) : Scan :=
  { s with place := .fieldStart, field := [], record := s.field.reverse :: s.record }

def endRecord (s : Scan) : Scan :=
  { s with
    place := .lineStart
    field := []
    record := []
    records := (s.field.reverse :: s.record).reverse :: s.records }

/-- A byte where no quote is open. -/
def stepPlain (s : Scan) (b : UInt8) : Scan :=
  if b = comma then s.endField
  else if isLineBreak b then s.endRecord
  else s.push .plain b

def step (s : Scan) (b : UInt8) : Scan :=
  match s.place with
  | .lineStart =>
    if isLineBreak b then s
    else if b = quotation then { s with place := .quoted }
    else s.stepPlain b
  | .fieldStart => if b = quotation then { s with place := .quoted } else s.stepPlain b
  | .plain => s.stepPlain b
  | .quoted => if b = quotation then { s with place := .closed } else s.push .quoted b
  | .closed => if b = quotation then s.push .quoted b else s.stepPlain b

def finish (s : Scan) : List Record :=
  (if s.place = .lineStart then s else s.endRecord).records.reverse

end Scan

/-- The mark that may stand before the first byte of a text. -/
def byteOrderMark : Bytes := [0xEF, 0xBB, 0xBF]

def withoutMark (bytes : Bytes) : Bytes :=
  if byteOrderMark.isPrefixOf bytes then bytes.drop byteOrderMark.length else bytes

def records (bytes : Bytes) : List Record :=
  ((withoutMark bytes).foldl Scan.step Scan.start).finish

/-- Rows are numbered from one, and the first record is the header. -/
def headerRow : Nat := 1

def firstDataRow : Nat := headerRow + 1

end Solvency.Sheet
