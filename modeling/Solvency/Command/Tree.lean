import Solvency.Command.Disk

/-! # A disk in memory

Files and folders are kept by their addresses, which are lists of names from the root. A path is
followed name by name, and every address that it leaves has to be a folder's.
-/
namespace Solvency.Command

abbrev Address := List String

inductive Entry
  | folder
  | file (content : Sheet.Bytes)

/-- Relative paths begin at `home`. -/
structure Tree where
  entries : List (Address × Entry)
  home : Address

/-- The sizes in bytes that no name and no path exceeds. -/
def longestName : Nat := 255
def longestPath : Nat := 4095

namespace Tree

def entry? (t : Tree) (a : Address) : Option Entry :=
  if a.isEmpty then some .folder else t.entries.lookup a

def put (t : Tree) (a : Address) (e : Entry) : Tree :=
  { t with entries := t.entries.filter (·.1 != a) ++ [(a, e)] }

/-- Names can be looked up in folders only. -/
def enter (t : Tree) (here : Address) : Except FileFlaw Unit :=
  match t.entry? here with
  | none => .error .missing
  | some (.file _) => .error .notFolder
  | some .folder => .ok ()

def next (here : Address) (name : String) : Except FileFlaw Address :=
  if name = "" ∨ name = "." then .ok here
  else if name = ".." then .ok here.dropLast
  else if longestName < name.utf8ByteSize then .error .tooLong
  else .ok (here ++ [name])

def follow (t : Tree) (here : Address) : List String → Except FileFlaw Address
  | [] => .ok here
  | name :: rest => do
    t.enter here
    t.follow (← next here name) rest

/-- The address to which some names of a path lead. -/
def find (t : Tree) (path : String) (names : List String) : Except FileFlaw Address :=
  if longestPath < path.utf8ByteSize then .error .tooLong
  else t.follow (if isAbsolute path then [] else t.home) names

def read (t : Tree) (path : String) : Except FileFlaw Sheet.Bytes := do
  match t.entry? (← t.find path (pathNames path)) with
  | none => .error .missing
  | some .folder => .error .isFolder
  | some (.file content) => .ok content

def isFolder (t : Tree) (path : String) : Bool :=
  match t.read path with
  | .error .isFolder => true
  | _ => false

/-- A slash behind the name of a new folder says nothing. -/
def makeFolder (t : Tree) (path : String) : Except FileFlaw Tree := do
  let address ← t.find path ((pathNames path).filter (· != ""))
  if (t.entry? address).isSome then .error .occupied else .ok (t.put address .folder)

def write (t : Tree) (path : String) (content : Sheet.Bytes) : Except FileFlaw Tree := do
  let address ← t.find path (pathNames path)
  match t.entry? address with
  | some .folder => .error .isFolder
  | _ => .ok (t.put address (.file content))

def update (step : Tree → Except FileFlaw Tree) : ExceptT FileFlaw (StateM Tree) Unit := do
  match step (← get) with
  | .ok t => set t
  | .error flaw => throw flaw

def disk : Disk (StateM Tree) where
  read path := ExceptT.mk do return (← get).read path
  isFolder path := return (← get).isFolder path
  makeFolder path := update (·.makeFolder path)
  write path content := update (·.write path (Sheet.encode content))
  entropy := return 0

/-- An empty home, which does not lie at the root. -/
def empty : Tree := ⟨[(["tmp"], .folder), (["tmp", "home"], .folder)], ["tmp", "home"]⟩

/-- Adds a file below the home, and the folders it lies in. -/
def add (t : Tree) (path : String) (content : Sheet.Bytes) : Tree :=
  let names := stepNames path
  let t := (List.range names.length).foldl (fun t n => t.put (t.home ++ names.take n) .folder) t
  t.put (t.home ++ names) (.file content)

def ofFiles (files : List (String × Sheet.Bytes)) : Tree :=
  files.foldl (fun t (path, content) => t.add path content) empty

/-- The files below the home whose names end in `ending`, by their paths from there. -/
def list (t : Tree) (ending : String) : List (String × Sheet.Bytes) :=
  t.entries.filterMap fun (a, e) =>
    match t.home.isPrefixOf? a, e with
    | some names, .file content =>
      let path := "/".intercalate names
      if path.endsWith ending then some (path, content) else none
    | _, _ => none

end Tree
end Solvency.Command
