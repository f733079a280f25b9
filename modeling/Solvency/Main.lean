import Solvency.Command.Audit
import Solvency.Command.Generate

/-! # The program

`generate` draws a shard of accounts and saves it as a sheet; `audit` judges the accounts of sheets.
-/
namespace Solvency.Program
open Command

def usage : String :=
  "usage: generate ID TOTAL INVALID [options] | audit FILE... [options]\n"

def flawOf (error : IO.Error) : FileFlaw :=
  match error with
  | .noFileOrDirectory .. => .missing
  | .inappropriateType _ code _ => if code = 21 then .isFolder else .notFolder
  | .alreadyExists .. => .occupied
  | .invalidArgument _ code text => if code = 36 ∨ code = -36 then .tooLong else .other text
  | _ => .other (toString error)

def attempt {α : Type} (action : IO α) : ExceptT FileFlaw IO α := do
  match ← action.toBaseIO with
  | .ok a => return a
  | .error error => throw (flawOf error)

def seedOfBytes (bytes : ByteArray) : UInt64 :=
  bytes.data.foldl (fun seed b => seed * 256 + b.toUInt64) 0

def disk : Disk IO where
  read path := attempt (return (← IO.FS.readBinFile path).data.toList)
  isFolder path := try (← IO.FS.realPath path).isDir catch _ => return false
  makeFolder path := attempt (IO.FS.createDir path)
  write path content := attempt (IO.FS.writeFile path content)
  entropy := return seedOfBytes (← IO.getRandomBytes 8)

def environmentNames : List String := [
  "FIXTURE_ASSETS", "FIXTURE_DESIGNATED_TOKENS", "FIXTURE_BEYOND_TOP_TIER",
  "FIXTURE_OUTPUT_DIR", "FIXTURE_SEED"]

def environment : IO Environment := do
  let values ← environmentNames.mapM fun name => return (name, ← IO.getEnv name)
  return fun name => (values.lookup name).join

def finish (outcome : Outcome) : IO UInt32 := do
  (← IO.getStdout).putStr outcome.output
  (← IO.getStderr).putStr (outcome.report.getD usage)
  return UInt32.ofNat outcome.exit

def run (arguments : List String) : IO UInt32 := do
  let env ← environment
  match arguments with
  | "generate" :: rest => finish (← generate disk env rest)
  | "audit" :: rest => finish (← audit disk env rest)
  | _ => finish .misuse

end Solvency.Program

def main (arguments : List String) : IO UInt32 := Solvency.Program.run arguments
