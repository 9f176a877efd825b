import Scriptlet.Path

/-!
# File trees

- `FileTree` : files and directories by their components from the root
- `FileTree.read`, `FileTree.write` : reading and writing a file, seen from a directory
- `FileFault` : why a file cannot be reached
-/

namespace Scriptlet

inductive FileFault
  | missing
  | notDirectory
  | isDirectory
  | nameTooLong
  | badName
  deriving DecidableEq, Repr

def FileFault.message : FileFault → String
  | .missing => "no such file or directory"
  | .notDirectory => "not a directory"
  | .isDirectory => "is a directory"
  | .nameTooLong => "file name too long"
  | .badName => "invalid argument"

/-- Files with their bytes, and directories. A directory is also everything above a file or a
directory. -/
structure FileTree where
  files : List (List Bytes × Bytes)
  directories : List (List Bytes)

namespace FileTree

inductive Entry
  | file (bytes : Bytes)
  | directory

def isDirectory (tree : FileTree) (place : List Bytes) : Bool :=
  place.isEmpty || tree.directories.any (place.isPrefixOf ·) ||
    tree.files.any fun file => place.isPrefixOf file.1

def entry? (tree : FileTree) (place : List Bytes) : Option Entry :=
  match tree.files.lookup place with
  | some bytes => some (.file bytes)
  | none => if tree.isDirectory place then some .directory else none

/-- The size that no path may reach, in bytes. -/
def pathLimit : Nat := 4096

/-- The size of the longest name, in bytes. -/
def nameLimit : Nat := 255

def checkPath (path : Bytes) : Except FileFault Unit :=
  if path.contains 0 then .error .badName
  else if path.isEmpty then .error .missing
  else if pathLimit ≤ path.length then .error .nameTooLong
  else .ok ()

/-- Follows components from a place. Each step has to start in a directory. -/
def follow (tree : FileTree) (place : List Bytes) :
    List Bytes → Except FileFault (List Bytes)
  | [] => .ok place
  | component :: rest =>
    match tree.entry? place with
    | none => .error .missing
    | some (.file _) => .error .notDirectory
    | some .directory =>
      if component.isEmpty || component == Path.here then tree.follow place rest
      else if component == Path.up then tree.follow place.dropLast rest
      else if nameLimit < component.length then .error .nameTooLong
      else tree.follow (place ++ [component]) rest

def startOf (directory path : Bytes) : List Bytes :=
  if Path.isAbsolute path then [] else (Path.components directory).filter (!·.isEmpty)

def read (tree : FileTree) (directory path : Bytes) : Except FileFault Bytes := do
  checkPath path
  let place ← tree.follow (startOf directory path) (Path.components path)
  match tree.entry? place with
  | some (.file bytes) => return bytes
  | some .directory => throw .isDirectory
  | none => throw .missing

def put (tree : FileTree) (place : List Bytes) (bytes : Bytes) : FileTree :=
  { tree with files := (place, bytes) :: tree.files.filter fun file => file.1 != place }

def splitName (path : Bytes) : List Bytes × Bytes :=
  match (Path.components path).reverse.dropWhile (·.isEmpty) with
  | name :: parents => (parents.reverse, name)
  | [] => ([], [])

/-- Writes a file, over an earlier one. The directory has to be there, and a path that ends in a
slash is never the path of a file. -/
def write (tree : FileTree) (directory path bytes : Bytes) :
    Except FileFault FileTree := do
  checkPath path
  let (parents, name) := splitName path
  let parent ← tree.follow (startOf directory path) parents
  match tree.entry? parent with
  | none => throw .missing
  | some (.file _) => throw .notDirectory
  | some .directory =>
    if name.isEmpty || name == Path.here || name == Path.up ||
        path.getLast? == some Path.slash then
      throw .isDirectory
    else if nameLimit < name.length then throw .nameTooLong
    else
      let place := parent ++ [name]
      match tree.entry? place with
      | some .directory => throw .isDirectory
      | _ => return tree.put place bytes

end FileTree

end Scriptlet
