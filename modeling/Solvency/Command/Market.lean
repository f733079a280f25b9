import Solvency.Command.Console
import Solvency.Command.Options
import Solvency.Market.Reader

/-! # The market of a command

Options that every command has: where the asset sheet is, which tokens are designated, and what
counts above the top bracket. An option that is not given is taken from the environment, and
otherwise has its default.
-/
namespace Solvency.Command

abbrev Environment := String → Option String

def valueOption (name : String) : OptionSpec := ⟨name, none, true, false⟩

def marketSpecs : List OptionSpec :=
  [valueOption "assets", ⟨"designated", none, true, true⟩, valueOption "beyond-top-tier"]

structure MarketOptions where
  assets : String
  designated : List String
  topPolicy : TopPolicy

/-- The value of an option, or that of a variable. -/
def Given.single (g : Given) (env : Environment) (name variableName : String) : Option String :=
  (g.values name).head?.or (env variableName)

/-- A path of at least one character. -/
def path? (text : String) : Option String := if text.isEmpty then none else some text

def commaList (text : String) : List String :=
  (Text.splitOn ',' text.toList).map String.ofList

def designatedTokens (g : Given) (env : Environment) : List String :=
  match g.values "designated", env "FIXTURE_DESIGNATED_TOKENS" with
  | [], none => ["shib"]
  | [], some text => commaList text
  | values, _ => values.flatMap commaList

def marketOptions? (g : Given) (env : Environment) : Option MarketOptions := do
  let assets ← path? ((g.single env "assets" "FIXTURE_ASSETS").getD "cex_assets_info.csv")
  let topPolicy ←
    TopPolicy.ofName? ((g.single env "beyond-top-tier" "FIXTURE_BEYOND_TOP_TIER").getD "capped")
  return ⟨assets, designatedTokens g env, topPolicy⟩

def MarketOptions.settings (o : MarketOptions) : Settings :=
  { ({} : Settings).designating o.designated with topPolicy := o.topPolicy }

variable {m : Type → Type} [Monad m]

def MarketOptions.load (o : MarketOptions) (disk : Disk m) : Console m Market := do
  let activity := "loading asset table " ++ o.assets
  let bytes ← Console.attempt activity (disk.readSheet o.assets)
  Console.during activity bytes (Market.ofSheet o.settings bytes)

end Solvency.Command
