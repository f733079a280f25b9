import Solvency.Pledge

/-! # Accounts

An account holds a position in each of its tokens. Its standing says whether the platform accepts
it: an account is overpledged when some token has more units pledged than there is equity, and
overdrawn when its debts are worth more than the capacity of what it has pledged.
-/
namespace Solvency

inductive Standing
  | valid
  | overpledged
  | overdrawn
deriving DecidableEq

namespace Standing

def all : List Standing := [valid, overpledged, overdrawn]

def name : Standing → String
  | valid => "valid"
  | overpledged => "equity insufficient"
  | overdrawn => "debt exceeds collateral"

end Standing

structure Position where
  equity : Nat
  debt : Nat
  pledge : Pledge
deriving DecidableEq

namespace Position

def net (p : Position) : Int := p.equity - p.debt

/-- Nothing is owned and nothing owed, whatever is pledged. -/
def isIdle (p : Position) : Bool := p.equity == 0 && p.debt == 0

end Position

structure Holding where
  symbol : String
  precision : Nat
  position : Position
deriving DecidableEq

structure Account where
  index : Nat
  standing : Standing
  holdings : List Holding
deriving DecidableEq

/-- An account's id is its number in sixty-four hexadecimal digits. -/
def idDigits : Nat := 64

def idText (index : Nat) : String :=
  String.ofList ((Text.hexDigits index).leftpad idDigits '0')

namespace Account

def id (a : Account) : String := idText a.index

def holding? (a : Account) (symbol : String) : Option Holding :=
  a.holdings.find? (·.symbol == symbol)

end Account
end Solvency
