import NinjaFile.Handle
import NinjaFile.Iteration

/-!
# Assigning members

What of an object can be assigned.  Fixed statements take nothing, nor do attributes
that are computed; anything else keeps the value it was given.
-/

namespace NinjaFile.Script

/-- Assigns a field of a fixed statement, or something else that it has no room for. -/
def refuseFixed (o : Object) (name : String) : Action Unit :=
  if (o.fixedField? name).isSome then .fail (.frozen name)
  else .fail (.unsuitable "super(type, obj): obj must be an instance or subtype of type")

/-- The guard goes by what it was given from now on. -/
def assignBlocking (lock : LockId) (v : Value) : Action Unit :=
  .modify fun s =>
    (s.setGuard lock ((s.guard lock).setBlocking v.isTrue)).assign (.guard lock) "blocking" v

def assignNode (node : Node) (name : String) (v : Value) : Action Unit :=
  match node.partNamed? name with
  | some part => .modify fun s => s.putPart node part v
  | none => .assign node.identity name v

def assignObject (o : Object) (name : String) (v : Value) : Action Unit :=
  match o, name with
  | .handle h, name =>
      if h.expected.computes name then .fail (.readOnly name o.typeName)
      else .assign o.identity name v
  | .guard lock _, "blocking" => assignBlocking lock v
  | .report .., "args" => do .assign o.identity name (.tuple (← v.iterate))
  | .view _, "name" => .fail (.readOnly name o.typeName)
  | o, name =>
      if o.isFrozen then refuseFixed o name
      else
        match o.node? with
        | some node => assignNode node name v
        | none => .assign o.identity name v

def assignMember (owner : Value) (name : String) (v : Value) : Action Unit :=
  match owner, name with
  | .object o, name => assignObject o name v
  | .ownership _, "name" | .ownership _, "value" | .kind _, "name" | .kind _, "value" =>
      .fail (.fixedName name)
  | .kind _, "ordinal" => .fail (.readOnly name owner.typeName)
  | .ownership o, name => .assign (.ownership o) name v
  | .kind k, name => .assign (.kind k) name v
  | .lookalike serial _, name => .assign (.serial serial) name v
  | owner, name => .fail (.noAttribute owner.typeName name)

end NinjaFile.Script
