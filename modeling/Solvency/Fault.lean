import Solvency.Text.Quoted
import Solvency.Magnitude

/-! # Faults

Every way in which a sheet, a shard or a computation can be refused, by its cause. Rows are counted
as a reader of the sheet counts them: the header is row one.
-/
namespace Solvency

inductive BracketFlaw
  | notPair
  | notRange
  | lowerBound
  | upperBound
  | reversed
  | percent
  | overflow
  | unordered
deriving DecidableEq

def BracketFlaw.message : BracketFlaw → String
  | notPair => "expected lo-hi:ratio"
  | notRange => "expected lo-hi range"
  | lowerBound => "bad lower bound"
  | upperBound => "bad upper bound"
  | reversed => "upper bound below lower bound"
  | percent => "ratio must be an integer percent"
  | overflow => "boundary overflows"
  | unordered => "boundaries must be strictly increasing"

inductive HeaderFlaw
  | columns (count : Nat)
  | lastColumn (found expected : String)
deriving DecidableEq

def HeaderFlaw.message : HeaderFlaw → String
  | columns count => s!"{count} columns do not form rn, id, token groups and a total"
  | lastColumn found expected => s!"last column is {Text.quote found}, expected {expected}"

/-- The computations whose result has to fit a word. -/
inductive Computation
  | ratio
  | price
  | unitsOfValue
  | overshoot
  | accountNumbers
  | equityCeiling
  | topBracketEquity
deriving DecidableEq

def Computation.message : Computation → String
  | ratio => "scaling units by a ratio"
  | price => "scaling token price"
  | unitsOfValue => "converting value to token units"
  | overshoot => "adding debt overshoot"
  | accountNumbers => "numbering shard accounts"
  | equityCeiling => "scaling the equity ceiling"
  | topBracketEquity => "bounding equity by the top vl tier"

inductive FileFlaw
  | missing
  | notFolder
  | isFolder
  | occupied
  | tooLong
  | other (text : String)
deriving DecidableEq

def FileFlaw.message : FileFlaw → String
  | missing => "No such file or directory (os error 2)"
  | notFolder => "Not a directory (os error 20)"
  | isFolder => "Is a directory (os error 21)"
  | occupied => "File exists (os error 17)"
  | tooLong => "File name too long (os error 36)"
  | other text => text

inductive Fault
  | file (flaw : FileFlaw)
  | reading (flaw : FileFlaw)
  | ragged (row fields expected : Nat)
  | undecodable (row field offset : Nat)
  | shortRow (row fields expected : Nat)
  | bracket (row : Nat) (segment : String) (flaw : BracketFlaw)
  | amount (row : Nat) (token text : String)
  | zeroPrice (token : String)
  | repeatedToken (token : String)
  | unlistedToken (token : String)
  | accountId (row : Nat) (id : String)
  | header (flaw : HeaderFlaw)
  | counts (total invalid : Nat)
  | overflow (computation : Computation)
deriving DecidableEq

def Fault.message : Fault → String
  | file flaw => s!"IO error: {flaw.message}"
  | reading flaw => s!"CSV error: {flaw.message}"
  | ragged _ fields expected =>
    s!"found record with {fields} fields, but the previous record has {expected} fields"
  | undecodable _ field offset => s!"invalid UTF-8 in field {field} near byte index {offset}"
  | shortRow row fields expected =>
    s!"row {row}: expected at least {expected} fields, got {fields}"
  | bracket row segment flaw =>
    s!"row {row}: malformed tier bracket {Text.quote segment}: {flaw.message}"
  | amount row token text => s!"row {row}: invalid amount {Text.quote text} for {token}"
  | zeroPrice token => s!"token {token} has a zero price"
  | repeatedToken token => s!"token {token} appears more than once in the asset table"
  | unlistedToken token => s!"token {token} is not in the asset table"
  | accountId row id => s!"row {row}: account id {Text.quote id} is not 64 hex digits"
  | header flaw => s!"malformed fixture header: {flaw.message}"
  | counts total invalid => s!"invalid account count {invalid} exceeds total {total}"
  | overflow computation => s!"arithmetic overflow while {computation.message}"

/-- A folder can be opened like a file and fails only when it is read. -/
def FileFlaw.whenRead : FileFlaw → Fault
  | .isFolder => .reading .isFolder
  | flaw => .file flaw

/-- The result `n` of a computation, if it fits a word. -/
def narrow (computation : Computation) (n : Nat) : Except Fault Nat :=
  if n < wordLimit then .ok n else .error (.overflow computation)

end Solvency
