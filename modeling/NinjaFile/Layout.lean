import NinjaFile.Statement

/-!
# Layout

How statements are written.  Every statement gives some lines; in a file a blank
line stands in front of every rule, and wherever the kind of statement changes.
-/

namespace NinjaFile.Layout

def defaultIndent : String := "  "

def indentLines (mark : String) (lines : List String) : List String :=
  lines.map fun line => mark ++ line

def commentLine (text : String) : String := "# " ++ text
def defaultsLine (outputs : List String) : String := " ".intercalate ("default" :: outputs)
def subninjaLine (path : String) : String := "subninja " ++ path
def inclusionLine (path : String) : String := "include " ++ path
def ruleHeader (name : String) : String := "rule " ++ name
def poolHeader (name : String) : String := "pool " ++ name

def blockLines (mark : String) (block : List BlockLine) : List String :=
  indentLines mark (block.map BlockLine.render)

/-- A marker and its paths, or nothing when there are none. -/
def group (marker : String) (paths : List String) : List String :=
  if paths = [] then [] else marker :: paths

/-- The words before the colon of a `build` line and those behind it. -/
def edgeHeader (ruleName : String) (paths : Slots (List String)) : String :=
  " ".intercalate ("build" :: paths.outputs ++ group "|" paths.implicitOutputs) ++ ": " ++
    " ".intercalate
      (ruleName :: paths.inputs ++ group "|" paths.implicitInputs ++
        group "||" paths.orderOnlyInputs ++ group "|@" paths.validations)

def lines (mark : String) : Statement → List String
  | .comment text => [commentLine text]
  | .rule name block => ruleHeader name :: blockLines mark block
  | .build edge => edgeHeader edge.ruleName edge.paths :: blockLines mark edge.block
  | .binding line => [line.render]
  | .defaults outputs => [defaultsLine outputs]
  | .subninja path => [subninjaLine path]
  | .inclusion path => [inclusionLine path]
  | .pool name block builtIn =>
      if builtIn then [] else poolHeader name :: blockLines mark block

/-! ## Files -/

/-- The lines that stand between what was last written and a statement of kind `next`. -/
def separator (last : Option Kind) (next : Kind) : List String :=
  if next = .rule ∨ last ≠ some next then [""] else []

/-- The lines of a file, given the kind of the statement written before. -/
def linesFrom (mark : String) (last : Option Kind) : List Statement → List String
  | [] => []
  | s :: rest =>
      if s.isHidden then linesFrom mark last rest
      else separator last s.kind ++ lines mark s ++ linesFrom mark (some s.kind) rest

/-- Lines with their ends. -/
def joinLines (lines : List String) : String :=
  String.join (lines.map fun line => line ++ "\n")

def file (mark : String) (statements : List Statement) : String :=
  joinLines (linesFrom mark none statements)

end NinjaFile.Layout
