import Solvency.Command.Disk
import Solvency.Command.Failure

/-! # What a command does to the world

A command works on a disk, prints lines and may fail. Lines printed before a failure stay printed.
-/
namespace Solvency.Command

/-- How a command ended; a call that is not understood has no report. -/
structure Outcome where
  exit : Nat
  output : String
  report : Option String

def Outcome.misuse : Outcome := ⟨2, "", none⟩

abbrev Console (m : Type → Type) := ExceptT Failure (StateT String m)

namespace Console
variable {m : Type → Type} [Monad m] {α : Type}

def print (line : String) : Console m Unit := modify (· ++ line ++ "\n")

def fail (messages : List String) : Console m α := throw (Failure.ofChain messages)

/-- Goes on with a result, or fails by what was being done and the fault's chain. -/
def during (activity : String) (sheet : Sheet.Bytes) : Except Fault α → Console m α
  | .ok a => pure a
  | .error fault => fail (activity :: chain sheet fault)

def perform (action : m α) : Console m α := ExceptT.lift (StateT.lift action)

/-- Does something to the disk; no sheet is at hand when it fails. -/
def attempt (activity : String) (action : ExceptT Fault m α) : Console m α := do
  during activity [] (← perform action.run)

def outcome (c : Console m Unit) : m Outcome := do
  let (result, output) ← (ExceptT.run c).run ""
  match result with
  | .ok _ => return ⟨0, output, some ""⟩
  | .error failure => return ⟨1, output, some failure.report⟩

def rule : String := String.ofList (List.replicate 55 '=')

def printTitle (title : String) : Console m Unit := do
  print rule
  print ("  " ++ title)
  print rule

/-- A label in a column of its own, with what it labels. -/
def printEntry (label value : String) : Console m Unit :=
  print ("  " ++ String.ofList ((label ++ ":").toList.rightpad 25 ' ') ++ value)

end Console
end Solvency.Command
