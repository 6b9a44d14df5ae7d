import NinjaFile.CommandLine.Run

/-!
# The command line program

What the words of the command line lead to is read from the disk, the run itself
happens on a `FileTree`, and the files that are new or changed are written back.
-/

namespace NinjaFile

def placeText (place : Location) : String := "/" ++ "/".intercalate place

/-- What lies at a place of the disk. -/
def entryAt (place : Location) : IO (Option FileTree.Entry) := do
  match ← (IO.FS.readBinFile (placeText place)).toBaseIO with
  | .ok content => return some (.file content.toList)
  | .error (.inappropriateType ..) => return some .directory
  | .error _ => return none

/-- The tree with everything that lies on a path. -/
def observe (tree : FileTree) (place : Location) : List String → IO FileTree
  | [] => return tree
  | part :: rest => do
      let next := if part = ".." then place.dropLast else place ++ [part]
      match ← entryAt next with
      | none => return tree
      | some (.file content) => return tree.put next (.file content)
      | some .directory => observe (tree.put next .directory) next rest

def observePath (tree : FileTree) (text : String) : IO FileTree :=
  let path := Text.Path.ofString text
  observe tree (if path.root = .relative then tree.current else []) path.parts

/-- The part of the disk that a command line is about. -/
def surroundings (argv : List String) : IO FileTree := do
  let current := Text.Path.ofString (toString (← IO.currentDir))
  let tree := FileTree.ofCurrent current.parts
  match CommandLine.parse argv with
  | .error _ => return tree
  | .ok options =>
      let tree ← observePath tree options.manifest
      observePath tree (options.output.getD "")

/-- The exit code of a run, once its message is out. -/
def conclude : CommandLine.Ending → IO UInt32
  | .success => return 0
  | .exit e => return e.code.toUInt32
  | .failure f => do
      IO.eprintln f.message
      return 1

end NinjaFile

open NinjaFile in
def main (argv : List String) : IO UInt32 := do
  let before ← surroundings argv
  let result := CommandLine.run argv before
  for (place, content) in before.changes result.files do
    IO.FS.writeBinFile (placeText place) ⟨content.toArray⟩
  IO.print result.stdout
  for line in result.stderr do
    IO.eprintln line
  conclude result.ending
