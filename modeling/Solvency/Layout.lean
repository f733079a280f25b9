import Solvency.Account
import Solvency.Amount
import Solvency.Sheet.Writer

/-! # The layout of an account sheet

A record holds the number and the id of an account, then six columns for each token, then a total
that is not computed. The six columns are equity, debt, net balance and the three pledges; the
third column of a group is headed by the bare symbol.
-/
namespace Solvency.Layout

/-- What stands in one token's six columns. -/
structure TokenCells (α : Type) where
  equity : α
  debt : α
  net : α
  pledge : PerFacility α

namespace TokenCells
variable {α β : Type}

def toList (g : TokenCells α) : List α := g.equity :: g.debt :: g.net :: g.pledge.toList

def map (f : α → β) (g : TokenCells α) : TokenCells β := ⟨f g.equity, f g.debt, f g.net, g.pledge.map f⟩

end TokenCells

/-- Cuts a list into groups; what is left at the end belongs to none. -/
def groups {α : Type} : List α → List (TokenCells α)
  | equity :: debt :: net :: vipLoan :: crossMargin :: portfolioMargin :: rest =>
    ⟨equity, debt, net, ⟨vipLoan, crossMargin, portfolioMargin⟩⟩ :: groups rest
  | _ => []

def leadingColumns : Nat := 2

def groupColumns : Nat := 6

def totalColumn : String := "total_net_balance_usdt"

def totalPlaceholder : String := "0.0"

def headings (token : String) : TokenCells String where
  equity := "e_" ++ token
  debt := "d_" ++ token
  net := token
  pledge := .ofFn fun facility => facility.columnLabel ++ "_" ++ token

def header (tokens : List String) : List String :=
  "rn" :: "id" :: tokens.flatMap (fun token => (headings token).toList) ++ [totalColumn]

def amounts (p : Position) : TokenCells Int where
  equity := p.equity
  debt := p.debt
  net := p.net
  pledge := p.pledge.map Int.ofNat

def holdingCells (h : Holding) : List String :=
  ((amounts h.position).map (Amount.render h.precision)).toList

def cells (a : Account) : List String :=
  toString a.index :: a.id :: a.holdings.flatMap holdingCells ++ [totalPlaceholder]

def write (tokens : List String) (accounts : List Account) : Except Fault String :=
  Sheet.write (header tokens) (accounts.map cells)

end Solvency.Layout
