import NinjaFile.GuardedList

/-!
# Nodes

Rules, builds and pools are the statements that own lists.  A node is moved to
another ownership list by list, each of its lists giving way to a copy unless it
already has that ownership.
-/

namespace NinjaFile

inductive Node where
  | rule (id : RuleId)
  | build (id : BuildId)
  | pool (id : PoolId)
deriving DecidableEq, Repr

namespace Object

def ofNode : Node → Object
  | .rule id => .rule id
  | .build id => .build id
  | .pool id => .pool id

def node? : Object → Option Node
  | .rule id => some (.rule id)
  | .build id => some (.build id)
  | .pool id => some (.pool id)
  | _ => none

@[simp] theorem node?_ofNode (node : Node) : (ofNode node).node? = some node := by
  cases node <;> rfl

end Object

namespace Value

def node? : Value → Option Node
  | .object o => o.node?
  | _ => none

end Value

/-- A list of a node: its bindings, or the paths of one slot of a build. -/
inductive Part where
  | bindings
  | paths (slot : Slot)
deriving DecidableEq, Repr

namespace Slot

def fieldName : Slot → String
  | .outputs => "outputs"
  | .implicitOutputs => "implicit_outputs"
  | .inputs => "dependencies"
  | .implicitInputs => "implicit_dependencies"
  | .orderOnlyInputs => "order_only_dependencies"
  | .validations => "validations"

end Slot

namespace Part

def name : Part → String
  | .bindings => "variables"
  | .paths slot => slot.fieldName

end Part

namespace Node

def identity (node : Node) : Identity := (Object.ofNode node).identity

/-- The lists of a node in the order in which they change ownership. -/
def parts : Node → List Part
  | .build _ => Slot.all.map .paths ++ [.bindings]
  | _ => [.bindings]

end Node

namespace Store

/-- The list a node has as a part. -/
def part (s : Store) : Node → Part → ListId
  | .rule id, _ => (s.rule id).bindings
  | .pool id, _ => (s.pool id).bindings
  | .build id, .bindings => (s.build id).bindings
  | .build id, .paths slot => (s.build id).paths.get slot

def setPart (s : Store) (node : Node) (part : Part) (list : ListId) : Store :=
  match node, part with
  | .rule id, _ => s.modifyRule id fun r => { r with bindings := list }
  | .pool id, _ => s.modifyPool id fun p => { p with bindings := list }
  | .build id, .bindings => s.modifyBuild id fun b => { b with bindings := list }
  | .build id, .paths slot => s.modifyBuild id fun b => { b with paths := b.paths.set slot list }

/-- The list a node has as a part, or what was put in its place. -/
def partValue (s : Store) (node : Node) (part : Part) : Value :=
  (s.assigned? node.identity part.name).getD (.object (.list (s.part node part)))

/-- Gives a node another part. -/
def putPart (s : Store) (node : Node) (part : Part) (v : Value) : Store :=
  match v with
  | .object (.list id) => (s.setPart node part id).unassign node.identity part.name
  | v => s.assign node.identity part.name v

end Store

namespace Value

/-- The same under another ownership, for a list. -/
def adopt (v ownership : Value) : Action Value :=
  match v with
  | .object (.list id) => do return .object (.list (← id.adopt ownership))
  | v => .fail (.noAttribute v.typeName "adopt")

end Value

namespace Node

def adoptPart (node : Node) (ownership : Value) (part : Part) : Action Unit := do
  let v ← Action.read fun s => s.partValue node part
  let v ← v.adopt ownership
  .modify fun s => s.putPart node part v

def adoptParts (node : Node) (ownership : Value) : List Part → Action Unit
  | [] => return ()
  | part :: rest => do
      node.adoptPart ownership part
      node.adoptParts ownership rest

def adopt (node : Node) (ownership : Value) : Action Unit :=
  node.adoptParts ownership node.parts

end Node

end NinjaFile
