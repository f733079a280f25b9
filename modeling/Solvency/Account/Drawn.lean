import Solvency.Account
import Solvency.Draws.Basic

/-! # Drawn accounts

An account of a wanted standing is built from draws of its equities. An overpledged account pledges
about a quarter more than it owns. An overdrawn one owes just above the capacity of each pledge,
then a little more. A valid one owes an equal share of its whole capacity in every token, a little
less than that.
-/
namespace Solvency.Account

/-- Half, a quarter and an eighth of the equity. -/
def solventDivisors : PerFacility Nat := ⟨2, 4, 8⟩

/-- Half, a quarter and a half of the equity. -/
def excessiveDivisors : PerFacility Nat := ⟨2, 4, 2⟩

/-- The largest equity drawn, in units. -/
def ceilingUnits (settings : Settings) (l : Listing) : Except Fault Nat :=
  narrow .equityCeiling (settings.equityCeiling * l.quote.scaling.unitScale)

def drawEquity (low high : Nat) : Drawing Nat := Draws.between low (max high low)

def drawOverpledged (settings : Settings) (l : Listing) : Drawing Position := do
  let ceiling ← ceilingUnits settings l
  let equity ← drawEquity 1 ceiling
  return ⟨equity, equity / 2, .shareUp equity excessiveDivisors⟩

/-- A token without brackets at the VIP loan owes one whole token, whatever it is worth. -/
def drawOverdrawn [Arithmetic] (settings : Settings) (l : Listing) : Drawing Position := do
  match (l.schedule .vipLoan).top? with
  | none =>
    let ceiling ← ceilingUnits settings l
    let equity ← drawEquity 0 ceiling
    return ⟨equity, l.quote.scaling.unitScale, .share equity solventDivisors⟩
  | some top =>
    let most ← narrow .topBracketEquity (top / l.quote.price)
    let equity ← drawEquity 0 most
    let pledge := Pledge.share equity solventDivisors
    let debt ← l.debtBeyond settings.topPolicy pledge settings.overshoot
    let inflated ← settings.inflation.ceil debt
    return ⟨equity, inflated, pledge⟩

/-- A position without debt. -/
def drawSolvent (settings : Settings) (l : Listing) : Drawing Position := do
  let ceiling ← ceilingUnits settings l
  let equity ← drawEquity 0 ceiling
  return ⟨equity, 0, .share equity solventDivisors⟩

def totalCapacity [Arithmetic] (policy : TopPolicy) (entries : List (Listing × Position)) : Nat :=
  entries.foldr (fun (l, p) total => Arithmetic.keep (l.capacity policy p.pledge + total)) 0

/-- Gives a position a debt of about `value`. -/
def indebt (settings : Settings) (value : Nat) (entry : Listing × Position) :
    Except Fault Position := do
  let debt ← entry.1.quote.unitsWithin value
  let shrunk ← settings.shrinkage.floor debt
  return { entry.2 with debt := shrunk }

/-- Shares the capacity of all pledges evenly among the tokens, as debt. -/
def indebtAll [Arithmetic] (settings : Settings) (entries : List (Listing × Position)) :
    Except Fault (List Position) :=
  let average := totalCapacity settings.topPolicy entries / max entries.length 1
  entries.mapM (indebt settings average)

def drawValid [Arithmetic] (settings : Settings) (listings : List Listing) :
    Drawing (List Position) := do
  let positions ← listings.mapM (drawSolvent settings)
  indebtAll settings (listings.zip positions)

def drawPositions [Arithmetic] (settings : Settings) (listings : List Listing) :
    Standing → Drawing (List Position)
  | .overpledged => listings.mapM (drawOverpledged settings)
  | .overdrawn => listings.mapM (drawOverdrawn settings)
  | .valid => drawValid settings listings

def holdingOf (entry : Listing × Position) : Holding :=
  ⟨entry.1.symbol, entry.1.quote.scaling.precision, entry.2⟩

def draw [Arithmetic] (settings : Settings) (listings : List Listing) (index : Nat)
    (standing : Standing) : Drawing Account := do
  let positions ← drawPositions settings listings standing
  return ⟨index, standing, (listings.zip positions).map holdingOf⟩

end Solvency.Account
