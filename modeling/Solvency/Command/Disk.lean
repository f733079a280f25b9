import Solvency.Fault
import Solvency.Sheet.Cell
import Solvency.Text.Split

/-! # Disks

What a command needs of a disk: to read a file, to make one folder, to write a file. A command runs
alike on a real disk and on one held in memory. A folder on the way to a file is made together with
those it lies in; where that fails halfway, the folders made so far stay.
-/
namespace Solvency.Command

structure Disk (m : Type → Type) where
  read : (path : String) → ExceptT FileFlaw m Sheet.Bytes
  isFolder : (path : String) → m Bool
  /-- Makes a folder inside one that is there. -/
  makeFolder : (path : String) → ExceptT FileFlaw m Unit
  write : (path content : String) → ExceptT FileFlaw m Unit
  /-- A seed that nothing determines. -/
  entropy : m UInt64

/-- What stands between the slashes of a path. -/
def pathNames (path : String) : List String :=
  (Text.splitOn '/' path.toList).map String.ofList

def isAbsolute (path : String) : Bool := path.startsWith "/"

def joinPath (folder name : String) : String :=
  if folder.endsWith "/" then folder ++ name else folder ++ "/" ++ name

/-- The names of a path that lead anywhere. -/
def stepNames (path : String) : List String :=
  (pathNames path).filter fun name => name != "" && name != "."

/-- The paths to the folders that a path runs through, the nearest first. Neither the root is among
them nor the folder where a relative path begins. -/
def pathsAbove (path : String) : List String :=
  let names := stepNames path
  let root := if isAbsolute path then "/" else ""
  (List.range (names.length - 1)).reverse.map fun n => root ++ "/".intercalate (names.take (n + 1))

namespace Disk
variable {m : Type → Type} [Monad m]

/-- Makes a folder unless it is there. -/
def ensureFolder (disk : Disk m) (path : String) : ExceptT FileFlaw m Unit :=
  tryCatch (disk.makeFolder path) fun flaw => do
    let isThere ← if flaw = .occupied then disk.isFolder path else pure false
    unless isThere do throw flaw

/-- Makes sure of the first of some folders that has a folder to lie in. Those before it are left,
the last of them first. -/
def ensureNearest (disk : Disk m) (left : List String) :
    List String → ExceptT FileFlaw m (List String)
  | [] => return left
  | path :: above =>
    tryCatch (do disk.ensureFolder path; return left) fun flaw =>
      if flaw = .missing then disk.ensureNearest (path :: left) above else throw flaw

def ensureFolders (disk : Disk m) (path : String) : ExceptT FileFlaw m Unit := do
  let left ← disk.ensureNearest [] (path :: pathsAbove path)
  left.forM disk.ensureFolder

def readSheet (disk : Disk m) (path : String) : ExceptT Fault m Sheet.Bytes :=
  (disk.read path).adapt FileFlaw.whenRead

/-- Writes a file into a folder, which is made if need be. -/
def save (disk : Disk m) (folder name content : String) : ExceptT Fault m Unit :=
  ExceptT.adapt Fault.file do
    disk.ensureFolders folder
    disk.write (joinPath folder name) content

end Disk
end Solvency.Command
