import Solvency.Market
import Solvency.Schedule.Reader
import Solvency.Sheet.Cell

/-! # Reading the asset sheet

After the header, which is not looked at, every record lists one token: its symbol, its price and
three bracket lists, in the order of the facilities. Further fields are ignored. The first record
with a flaw is the one reported.
-/
namespace Solvency.Market

def requiredFields : Nat := 5

def readPrice (scaling : Scaling) (row : Nat) (symbol text : String) : Except Fault Nat :=
  match Amount.scaled? text scaling.priceMultiplier with
  | none => .error (.amount row symbol text)
  | some price => if price = 0 then .error (.zeroPrice symbol) else narrow .price price

def readListing (settings : Settings) (row : Nat) (cells : List String) : Except Fault Listing :=
  match cells with
  | name :: price :: vipLoan :: crossMargin :: portfolioMargin :: _ => do
    let symbol := symbolOf name
    let scaling := settings.scalingOf symbol
    let price ← readPrice scaling row symbol price
    let vipLoan ← Schedule.read vipLoan settings.valueMultiplier row
    let crossMargin ← Schedule.read crossMargin settings.valueMultiplier row
    let portfolioMargin ← Schedule.read portfolioMargin settings.valueMultiplier row
    return ⟨⟨symbol, price, scaling⟩, ⟨vipLoan, crossMargin, portfolioMargin⟩⟩
  | _ => .error (.shortRow row cells.length requiredFields)

def readNext (settings : Settings) (m : Market) (entry : Sheet.Record × Nat) :
    Except Fault Market := do
  let cells ← Sheet.cells entry.2 entry.1
  let listing ← readListing settings entry.2 cells
  m.insert listing

/-- The market that the records behind the header list. -/
def ofRecords (settings : Settings) (records : List Sheet.Record) : Except Fault Market :=
  (records.zipIdx Sheet.firstDataRow).foldlM (readNext settings) empty

def ofSheet (settings : Settings) (bytes : Sheet.Bytes) : Except Fault Market :=
  ofRecords settings (Sheet.records bytes).tail

end Solvency.Market
