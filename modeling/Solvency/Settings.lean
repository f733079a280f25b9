import Solvency.Ratio
import Solvency.Schedule.Basic
import Solvency.Text.Blank
import Solvency.Text.Lowercase

/-! # Settings

What is fixed before a sheet is read: the tokens of an account, the two ways of scaling quantities
and prices, and the constants by which accounts are drawn.
-/
namespace Solvency

/-- Quantities have `precision` decimal places; prices are scaled to match. -/
structure Scaling where
  precision : Nat
  priceMultiplier : Nat
deriving DecidableEq

namespace Scaling

def eightPlaces : Scaling := ⟨8, tenTo 8⟩

def twoPlaces : Scaling := ⟨2, tenTo 14⟩

/-- The units of one whole token, of which a word keeps the lower bits. -/
def unitScale (s : Scaling) : Nat := tenTo s.precision % wordLimit

end Scaling

/-- A symbol as the market knows it: without blanks around it and in lower case. -/
def symbolOf (text : String) : String :=
  String.ofList (Text.lowercase (Text.trim text.toList))

structure Settings where
  tokens : List String := ["btc", "eth", "bnb", "shib"]
  /-- The tokens that have a scaling of their own, sorted and without repetition. -/
  designated : List String := ["shib"]
  commonScaling : Scaling := .eightPlaces
  designatedScaling : Scaling := .twoPlaces
  /-- The value units of one unit of the bounds in a bracket list. -/
  valueMultiplier : Nat := tenTo 16
  /-- The largest equity drawn, in whole tokens. -/
  equityCeiling : Nat := 1000
  /-- The value by which an excessive debt passes the capacity behind it. -/
  overshoot : Nat := 10
  inflation : Ratio := ⟨101, 100⟩
  shrinkage : Ratio := ⟨99, 100⟩
  topPolicy : TopPolicy := .capped

namespace Settings

def designating (s : Settings) (tokens : List String) : Settings :=
  let lowered := tokens.map fun token => String.ofList (Text.lowercase token.toList)
  { s with designated := lowered.eraseDups.mergeSort fun a b => !decide (b < a) }

def isDesignated (s : Settings) (token : String) : Bool := s.designated.contains token

def scalingOf (s : Settings) (token : String) : Scaling :=
  if s.isDesignated token then s.designatedScaling else s.commonScaling

end Settings
end Solvency
