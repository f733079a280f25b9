/-! # Command-line options

An argument list is read against a list of known options. Options may stand anywhere among the
operands until a double dash; the value of a long option follows it or an equals sign, that of a
short one follows it or its letter. Only an option marked so may be given twice, and a value given
apart from its option does not begin with a dash unless it is a single one.
-/
namespace Solvency.Command

structure OptionSpec where
  name : String
  letter : Option Char
  takesValue : Bool
  repeats : Bool
deriving DecidableEq

/-- The options with their values and the operands, each in the order given. -/
structure Given where
  options : List (String × String)
  operands : List String

def Given.values (g : Given) (name : String) : List String :=
  (g.options.filter (·.1 == name)).map (·.2)

def Given.has (g : Given) (name : String) : Bool := !(g.values name).isEmpty

/-- What has been read, and the option whose value has to come next. -/
structure Reading where
  given : Given
  pending : Option OptionSpec
  ended : Bool

namespace Reading

def start : Reading := ⟨⟨[], []⟩, none, false⟩

def operand (r : Reading) (text : String) : Reading :=
  { r with given := { r.given with operands := r.given.operands ++ [text] } }

def record (r : Reading) (spec : OptionSpec) (value : String) : Option Reading :=
  if r.given.has spec.name && !spec.repeats then none
  else
    let options := r.given.options ++ [(spec.name, value)]
    some { r with given := { r.given with options := options }, pending := none }

def long (specs : List OptionSpec) (r : Reading) (body : List Char) : Option Reading := do
  let name := String.ofList (body.takeWhile (· != '='))
  let spec ← specs.find? (·.name == name)
  match spec.takesValue, body.dropWhile (· != '=') with
  | true, [] => some { r with pending := some spec }
  | true, _ :: value => r.record spec (String.ofList value)
  | false, [] => r.record spec ""
  | false, _ :: _ => none

/-- Letters behind one dash: flags, until one that takes the rest as its value. -/
def short (specs : List OptionSpec) (r : Reading) : List Char → Option Reading
  | [] => some r
  | c :: cs => do
    let spec ← specs.find? (·.letter == some c)
    if spec.takesValue then
      match cs with
      | [] => some { r with pending := some spec }
      | '=' :: value => r.record spec (String.ofList value)
      | value => r.record spec (String.ofList value)
    else
      let r ← r.record spec ""
      r.short specs cs

def step (specs : List OptionSpec) (r : Reading) (argument : String) : Option Reading :=
  if r.ended then some (r.operand argument)
  else
    match r.pending, argument.toList with
    | some spec, ['-'] => r.record spec argument
    | some _, '-' :: _ => none
    | some spec, _ => r.record spec argument
    | none, ['-', '-'] => some { r with ended := true }
    | none, '-' :: '-' :: body => r.long specs body
    | none, ['-'] => some (r.operand argument)
    | none, '-' :: letters => r.short specs letters
    | none, _ => some (r.operand argument)

end Reading

def given? (specs : List OptionSpec) (arguments : List String) : Option Given := do
  let r ← arguments.foldlM (Reading.step specs) Reading.start
  if r.pending.isSome then none else some r.given

end Solvency.Command
