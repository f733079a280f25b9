import Solvency.Command.Market
import Solvency.Layout
import Solvency.Shard

/-! # The command that draws a shard

Its operands are the shard's id, how many accounts it has and how many of them are invalid. The
accounts are saved as a sheet named for the shard.
-/
namespace Solvency.Command

structure GenerateOptions where
  market : MarketOptions
  shard : Shard
  folder : String
  seed : Option UInt64

def generateSpecs : List OptionSpec :=
  marketSpecs ++ [⟨"output-dir", some 'o', true, false⟩, valueOption "seed"]

def word? (text : String) : Option Nat := Text.natural? wordLimit text.toList

/-- The value of an optional setting; one that is given has to be a word. -/
def optionalWord? (text : Option String) : Option (Option Nat) :=
  text.elim (some none) fun t => (word? t).map some

def generateOptions? (env : Environment) (arguments : List String) : Option GenerateOptions := do
  let g ← given? generateSpecs arguments
  let market ← marketOptions? g env
  let folder ← path? ((g.single env "output-dir" "FIXTURE_OUTPUT_DIR").getD ".")
  let seed ← optionalWord? (g.single env "seed" "FIXTURE_SEED")
  match g.operands with
  | [id, total, invalid] =>
    let id ← word? id
    let total ← word? total
    let invalid ← word? invalid
    let shard ← (Shard.of id total invalid).toOption
    return ⟨market, shard, folder, seed.map UInt64.ofNat⟩
  | _ => none

variable {m : Type → Type} [Monad m]

def drawAccounts (settings : Settings) (market : Market) (shard : Shard) (seed : UInt64) :
    Console m (List Account) :=
  match ((Shard.draw settings market shard).run (Draws.ofSeed seed)).1 with
  | .ok accounts => pure accounts
  | .error fault => Console.fail (chain [] fault)

def GenerateOptions.run (o : GenerateOptions) (disk : Disk m) : Console m Unit := do
  let settings := o.market.settings
  let market ← o.market.load disk
  let seed ← o.seed.elim (Console.perform disk.entropy) pure
  let accounts ← drawAccounts settings market o.shard seed
  let name := Shard.fileName o.shard.id
  let activity := s!"writing shard {o.shard.id} to {o.folder}"
  let content ← Console.during activity [] (Layout.write settings.tokens accounts)
  Console.attempt activity (disk.save o.folder name content)
  Console.printTitle s!"Shard {o.shard.id} -> {joinPath o.folder name}"
  Console.printEntry "Seed" (toString seed)
  Console.printEntry "Tokens" (", ".intercalate settings.tokens)
  for standing in Standing.all do
    Console.printEntry standing.name (toString (accounts.countP (·.standing == standing)))

def generate (disk : Disk m) (env : Environment) (arguments : List String) : m Outcome :=
  match generateOptions? env arguments with
  | none => return .misuse
  | some options => (options.run disk).outcome

end Solvency.Command
