import NinjaFile.Subscript

/-!
# Handles

A handle is a place in an arena.  What it leads to is looked up each time, and a handle
that insists on a kind of statement refuses any other.  Some attributes of a handle are
those of the statement it leads to.
-/

namespace NinjaFile

namespace Expected

def admits : Expected → Value → Bool
  | .any, _ => true
  | .rule, .object (.rule _) => true
  | .build, .object (.build _) => true
  | .pool, .object (.pool _) => true
  | _, _ => false

/-- Attributes that a handle takes from the statement it leads to. -/
def forwards (expected : Expected) (name : String) : Bool :=
  match expected with
  | .any => false
  | .rule | .pool => name = "name" || name = "variables"
  | .build => name = "rule_name" || name = "variables"

/-- Attributes that are looked up and cannot be assigned. -/
def computes (expected : Expected) (name : String) : Bool :=
  name = "statement" || (name = "node" && expected ≠ .any) || expected.forwards name

end Expected

namespace Handle

/-- What a handle points into. -/
def statements (h : Handle) : Action Value :=
  Action.read fun s =>
    ((Value.object (.handle h)).stored? s "statements").getD (.object (.arena h.arena))

def place (h : Handle) : Action Value :=
  Action.read fun s => ((Value.object (.handle h)).stored? s "index").getD (.int h.index)

/-- The statement a handle leads to. -/
def statement (h : Handle) : Action Value := do
  let statements ← h.statements
  let index ← h.place
  let v ← statements.item index ""
  if h.expected.admits v then return v
  else
    .fail (.wrongKind h.expected.statementName v.typeName
      (index.whole?.getD (.number h.index)))

def node (h : Handle) : Action Node := do
  match (← h.statement).node? with
  | some node => return node
  | none => .fail .notImplemented

end Handle

namespace Value

def storedMember (v : Value) (name : String) : Action Value := do
  match ← Action.read fun s => v.stored? s name with
  | some w => return w
  | none => .fail (.noAttribute v.typeName name)

end Value

def Handle.member (h : Handle) (name : String) : Action Value :=
  if h.expected.computes name then do
    let v ← h.statement
    if h.expected.forwards name then v.storedMember name else return v
  else (Value.object (.handle h)).storedMember name

/-- An attribute of a value, computed or not. -/
def Value.member (v : Value) (name : String) : Action Value :=
  match v with
  | .object (.handle h) => h.member name
  | v => v.storedMember name

end NinjaFile
