import Solvency.Fault
import Solvency.Sheet.Location

/-! # How a command reports a failure

A failure is a message and the chain of what caused it. Causes are listed under the message and
numbered when there are several; where a record of a sheet is at fault, they say where it begins.
-/
namespace Solvency.Command

/-- A message and what caused it, the nearest cause first. -/
structure Failure where
  message : String
  causes : List String

namespace Failure

/-- Every line after the first is set under the first. -/
def indent (first rest text : String) : String :=
  first ++ ("\n" ++ rest).intercalate (text.splitOn "\n")

def number (n : Nat) : String := String.ofList ((toString n).toList.leftpad 5 ' ') ++ ": "

def causeLines (causes : List String) : List String :=
  match causes with
  | [cause] => [indent "    " "    " cause]
  | _ => causes.zipIdx.map fun (cause, n) => indent (number n) "       " cause

def report (f : Failure) : String :=
  "Error: " ++ f.message ++
    (if f.causes.isEmpty then "" else "\n\nCaused by:\n" ++ "\n".intercalate (causeLines f.causes)) ++
    "\n"

end Failure

/-- A fault's message as a chain, with the place in the sheet where a record is at fault. -/
def chain (sheet : Sheet.Bytes) (fault : Fault) : List String :=
  match fault with
  | .file flaw => [fault.message, flaw.message]
  | .reading flaw => [fault.message, flaw.message]
  | .ragged row _ _ =>
    let place := Sheet.locate sheet row
    let text := s!"CSV error: record {place.record} (line: {place.line}, byte: {place.byte}): " ++
      fault.message
    ["CSV error: " ++ text, text]
  | .undecodable row field _ =>
    let place := Sheet.locate sheet row
    let text := s!"CSV parse error: record {place.record} (line {place.line}, field: {field}, " ++
      s!"byte: {place.byte}): invalid utf-8: " ++ fault.message
    ["CSV error: " ++ text, text]
  | _ => [fault.message]

def Failure.ofChain (messages : List String) : Failure := ⟨messages.headD "", messages.tail⟩

end Solvency.Command
