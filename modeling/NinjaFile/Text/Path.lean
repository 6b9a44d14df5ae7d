/-!
# Paths

A path is a root (nothing, `/`, or exactly two slashes) and its components.
Repeated slashes, `.` components and a trailing slash carry nothing and are
dropped; `..` stays, because its meaning depends on the directories.  The empty
path is written `.`.
-/

namespace NinjaFile.Text

inductive Root where
  | relative
  | single
  | double
deriving DecidableEq, Repr

structure Path where
  root : Root
  parts : List String
deriving DecidableEq, Repr

namespace Path

/-- The pieces of a text between the slashes, empty ones included. -/
def pieces : List Char → List (List Char)
  | [] => [[]]
  | c :: rest =>
      if c = '/' then [] :: pieces rest
      else
        match pieces rest with
        | [] => [[c]]
        | piece :: more => (c :: piece) :: more

def rootOf : List Char → Root
  | '/' :: '/' :: '/' :: _ => .single
  | '/' :: '/' :: _ => .double
  | '/' :: _ => .single
  | _ => .relative

def ofString (text : String) : Path where
  root := rootOf text.toList
  parts := ((pieces text.toList).filter fun p => p ≠ [] ∧ p ≠ ['.']).map String.ofList

def rootText : Root → String
  | .relative => ""
  | .single => "/"
  | .double => "//"

def toText (path : Path) : String :=
  if path.root = .relative ∧ path.parts = [] then "."
  else rootText path.root ++ "/".intercalate path.parts

/-- The normal form of a path text. -/
def normal (text : String) : String := (ofString text).toText

/-- What is left of a path below `base`, when the components of `base` come first. -/
def below? (base path : Path) : Option Path :=
  if base.root = path.root ∧ base.parts <+: path.parts then
    some ⟨.relative, path.parts.drop base.parts.length⟩
  else none

end Path

end NinjaFile.Text
