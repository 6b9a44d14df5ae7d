import NinjaFile.Fault
import NinjaFile.Keyed
import NinjaFile.Text.Path

/-!
# File trees

Files and directories by location, a location being the components from the
root.  A path is followed component by component, each of which has to lie in an
existing directory; `..` leads back to the directory above.
-/

namespace NinjaFile

abbrev Location := List String

inductive FileTree.Entry where
  | file (content : List UInt8)
  | directory
deriving DecidableEq, Repr

structure FileTree where
  entries : List (Location × FileTree.Entry)
  /-- Where relative paths start. -/
  current : Location
deriving DecidableEq, Repr

namespace FileTree

def lookup (tree : FileTree) (place : Location) : Option Entry :=
  if place = [] then some .directory else tree.entries.lookup place

/-- The most bytes that a component may have. -/
def componentLimit : Nat := 255

/-- A path has to be shorter than this. -/
def pathLimit : Nat := 4096

/-- Follows components from a place; only the last may lead to nothing. -/
def follow (tree : FileTree) (place : Location) : List String → Except PathFault Location
  | [] => .ok place
  | part :: rest =>
      match tree.lookup place with
      | none => .error .missing
      | some (.file _) => .error .notDirectory
      | some .directory =>
          if componentLimit < part.utf8ByteSize then .error .tooLong
          else tree.follow (if part = ".." then place.dropLast else place ++ [part]) rest

def locate (tree : FileTree) (path : Text.Path) : Except PathFault Location :=
  if path.toText.contains '\x00' then .error .nullCharacter
  else if pathLimit ≤ path.toText.utf8ByteSize then .error .tooLong
  else tree.follow (if path.root = .relative then tree.current else []) path.parts

/-- The current directory as a path. -/
def currentPath (tree : FileTree) : Text.Path := ⟨.single, tree.current⟩

/-- Whether a path leads to a file; a path that is too long cannot be asked about. -/
def isFile (tree : FileTree) (path : Text.Path) : Except PathFault Bool :=
  match tree.locate path with
  | .error .tooLong => .error .tooLong
  | .error _ => .ok false
  | .ok place =>
      match tree.lookup place with
      | some (.file _) => .ok true
      | _ => .ok false

def read (tree : FileTree) (path : Text.Path) : Except PathFault (List UInt8) := do
  let place ← tree.locate path
  match tree.lookup place with
  | none => .error .missing
  | some .directory => .error .directory
  | some (.file content) => .ok content

def put (tree : FileTree) (place : Location) (entry : Entry) : FileTree :=
  { tree with entries := setKey place entry tree.entries }

/-- Makes a file or replaces the content of one. -/
def write (tree : FileTree) (path : Text.Path) (content : List UInt8) :
    Except PathFault FileTree := do
  let place ← tree.locate path
  match tree.lookup place with
  | some .directory => .error .directory
  | _ => .ok (tree.put place (.file content))

/-! ## Making a tree -/

/-- A directory and all those above it. -/
def makeDirectory (tree : FileTree) (place : Location) : FileTree :=
  (List.range place.length).foldl
    (fun tree n => tree.put (place.take (n + 1)) .directory) tree

/-- The tree with one directory, the current one. -/
def ofCurrent (place : Location) : FileTree :=
  (FileTree.mk [] place).makeDirectory place

/-- The files that are new or have another content than before. -/
def changes (before after : FileTree) : List (Location × List UInt8) :=
  after.entries.filterMap fun (place, entry) =>
    match entry with
    | .directory => none
    | .file content =>
        if before.entries.lookup place = some (.file content) then none
        else some (place, content)

end FileTree

end NinjaFile
