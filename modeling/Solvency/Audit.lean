import Solvency.Layout
import Solvency.Sheet.Cell
import Solvency.Verdict

/-! # Auditing an account sheet

The auditor trusts nothing but the numbers: it takes the tokens from the header, reads every
account's equity, debt and pledges, and judges the account anew. The net balances, the total and
the other headings are not read.
-/
namespace Solvency

structure Finding where
  number : Nat
  id : String
  verdict : Verdict
deriving DecidableEq

structure Report where
  tokens : List String
  findings : List Finding
deriving DecidableEq

namespace Report

def count (r : Report) (standing : Standing) : Nat :=
  r.findings.countP (·.verdict.standing == standing)

def invalid (r : Report) : Nat := r.findings.length - r.count .valid

end Report

namespace Audit
open Layout Text

/-- The tokens that a header names, as listed. -/
def headerListings (m : Market) (header : List String) : Except Fault (List Listing) :=
  let columns := header.length
  if columns < leadingColumns + 1 ∨ (columns - (leadingColumns + 1)) % groupColumns ≠ 0 then
    .error (.header (.columns columns))
  else
    let last := header.getLast?.getD ""
    if last ≠ totalColumn then .error (.header (.lastColumn last totalColumn))
    else m.resolve ((groups (header.drop leadingColumns)).map fun g => symbolOf g.net)

def readNumber (row : Nat) (text : String) : Except Fault Nat :=
  (natural? wordLimit (trim text.toList)).elim (.error (.amount row "rn" text)) .ok

def readId (row : Nat) (text : String) : Except Fault String :=
  let id := trim text.toList
  if id.length = idDigits ∧ id.all isHexDigit then .ok (String.ofList id)
  else .error (.accountId row (String.ofList id))

/-- Reads a token's columns: first the pledges, then equity and debt. -/
def readHolding (row : Nat) (l : Listing) (g : TokenCells String) : Except Fault Holding := do
  let precision := l.quote.scaling.precision
  let units (text : String) : Except Fault Nat :=
    (Amount.units? text precision).elim (.error (.amount row l.symbol text)) .ok
  let vipLoan ← units g.pledge.vipLoan
  let crossMargin ← units g.pledge.crossMargin
  let portfolioMargin ← units g.pledge.portfolioMargin
  let equity ← units g.equity
  let debt ← units g.debt
  return ⟨l.symbol, precision, ⟨equity, debt, ⟨vipLoan, crossMargin, portfolioMargin⟩⟩⟩

def readFinding [Arithmetic] (m : Market) (policy : TopPolicy) (listings : List Listing) (row : Nat)
    (cells : List String) : Except Fault Finding :=
  match cells with
  | number :: id :: rest => do
    let number ← readNumber row number
    let id ← readId row id
    let holdings ← (listings.zip (groups rest)).mapM fun (l, g) => readHolding row l g
    let verdict ← m.judge policy holdings
    return ⟨number, id, verdict⟩
  | _ => .error (.ragged row cells.length leadingColumns)

def ofRecords [Arithmetic] (m : Market) (policy : TopPolicy) (header : List String)
    (records : List Sheet.Record) : Except Fault Report := do
  let listings ← headerListings m header
  let findings ← (records.zipIdx Sheet.firstDataRow).mapM fun (record, row) => do
    let cells ← Sheet.cellsOfWidth header.length row record
    readFinding m policy listings row cells
  return ⟨listings.map Listing.symbol, findings⟩

def ofSheet [Arithmetic] (m : Market) (policy : TopPolicy) (bytes : Sheet.Bytes) :
    Except Fault Report := do
  let records := Sheet.records bytes
  let header ← Sheet.cells Sheet.headerRow (records.headD [])
  ofRecords m policy header records.tail

end Audit
end Solvency
