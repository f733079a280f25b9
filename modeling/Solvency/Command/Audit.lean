import Solvency.Audit
import Solvency.Command.Market

/-! # The command that audits sheets

It prints a summary of every sheet it is given and, if a number of invalid accounts is expected,
fails at the end for the sheets that have another. A sheet that cannot be audited ends the command.
-/
namespace Solvency.Command

structure AuditOptions where
  market : MarketOptions
  files : List String
  expected : Option Nat
  verbose : Bool

def auditSpecs : List OptionSpec :=
  marketSpecs ++ [valueOption "expect-invalid", ⟨"verbose", some 'v', false, false⟩]

def auditOptions? (env : Environment) (arguments : List String) : Option AuditOptions := do
  let g ← given? auditSpecs arguments
  let market ← marketOptions? g env
  let expected ←
    match (g.values "expect-invalid").head? with
    | none => some none
    | some text => (Text.natural? wordLimit text.toList).map some
  let files ← g.operands.mapM path?
  if files.isEmpty then none else return ⟨market, files, expected, g.has "verbose"⟩

def findingLine (f : Finding) : Option String :=
  match f.verdict with
  | .valid => none
  | .overpledged token => some s!"  {f.number} {f.id}: collateral above equity in {token}"
  | .overdrawn debt capacity =>
    some s!"  {f.number} {f.id}: debt {debt} > collateral {capacity}"

variable {m : Type → Type} [Monad m]

def printReport (r : Report) : Console m Unit := do
  Console.printEntry "Tokens" (", ".intercalate r.tokens)
  Console.printEntry "Accounts" (toString r.findings.length)
  for standing in Standing.all do
    Console.printEntry standing.name (toString (r.count standing))
  Console.printEntry "Invalid total" (toString r.invalid)

/-- What is wrong with the number of invalid accounts in a file. -/
def mismatch (expected : Option Nat) (file : String) (r : Report) : Option String :=
  match expected with
  | none => none
  | some n => if r.invalid = n then none else some s!"{file}: {r.invalid} invalid, expected {n}"

def AuditOptions.auditFile (o : AuditOptions) (disk : Disk m) (market : Market) (file : String) :
    Console m (Option String) := do
  let activity := "auditing " ++ file
  let bytes ← Console.attempt activity (disk.readSheet file)
  let report ← Console.during activity bytes (Audit.ofSheet market o.market.topPolicy bytes)
  Console.printTitle file
  printReport report
  if o.verbose then
    for line in report.findings.filterMap findingLine do
      Console.print line
  Console.print ""
  return mismatch o.expected file report

def AuditOptions.run (o : AuditOptions) (disk : Disk m) : Console m Unit := do
  let market ← o.market.load disk
  let mismatches ← o.files.mapM (o.auditFile disk market)
  match mismatches.filterMap id with
  | [] => return
  | lines =>
    Console.fail ["invalid account counts differ:\n  " ++ "\n  ".intercalate lines]

def audit (disk : Disk m) (env : Environment) (arguments : List String) : m Outcome :=
  match auditOptions? env arguments with
  | none => return .misuse
  | some options => (options.run disk).outcome

end Solvency.Command
