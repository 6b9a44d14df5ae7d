import NinjaFile.Node

/-!
# Attributes

Everything has attributes, known by name.  What was assigned to a thing hides what it
was made with; of a thing that nothing was assigned to, the attributes are its fields.
-/

namespace NinjaFile

namespace DocumentRecord

def config (d : DocumentRecord) : Value :=
  .mapping (d.settings.map fun (key, v) => (.text key, v))

end DocumentRecord

namespace Arena

/-- Where an arena logs; one without a view logs nowhere. -/
def logger (arena : Arena) : Value :=
  match arena.view with
  | some view => .object (.view view)
  | none => .bare 0 "Logger"

end Arena

namespace Node

/-- The part that goes by a name. -/
def partNamed? (node : Node) (name : String) : Option Part :=
  node.parts.find? fun part => part.name == name

/-- The fields of a node that are no lists. -/
def field? (s : Store) (node : Node) (name : String) : Option Value :=
  match node, name with
  | .rule id, "name" => some (.text (s.rule id).name)
  | .pool id, "name" => some (.text (s.pool id).name)
  | .pool id, "built_in" => some (.bool (s.pool id).builtIn)
  | .build id, "rule_name" => some (.text (s.build id).ruleName)
  | _, _ => none

end Node

namespace Object

/-- The fields that are fixed with an object. -/
def fixedField? (o : Object) (name : String) : Option Value :=
  match o, name with
  | .comment _ text, "text" => some (.text text)
  | .binding _ b, "name" => some (.text b.name)
  | .binding _ b, "value" => some (.text b.value)
  | .defaults _ outputs, "outputs" => some (.tuple (outputs.map .text))
  | .subninja _ path, "path" => some (.text path)
  | .inclusion _ path, "path" => some (.text path)
  | _, _ => none

/-- Objects whose fields take no assignment. -/
def isFrozen : Object → Bool
  | .comment .. | .binding .. | .defaults .. | .subninja .. | .inclusion .. => true
  | _ => false

/-- What an object was made with. -/
def field? (s : Store) (o : Object) (name : String) : Option Value :=
  match o, name with
  | .list id, "ownership" => some (.ownership (s.list id).ownership)
  | .list id, "blocking" => some (.bool (s.list id).blocking)
  | .list id, "_guard" => some (.object (.guard (.list id) (s.list id).guard.isLocking))
  | .list id, "_items" => some (.list (s.list id).items)
  | .arena a, "ownership" => some (.ownership a.ownership)
  | .arena a, "logger" => some a.logger
  | .arena a, "_statements" => some (.object (.list a.statements))
  | .document id, "config" => some (s.document id).config
  | .document id, "ownership" => some (.ownership (s.document id).arena.ownership)
  | .document id, "logger" => some (s.document id).arena.logger
  | .document id, "statements" => some (.object (.arena (s.document id).arena))
  | .document id, "phony_rule" => some (.object (.rule (s.document id).phony))
  | .document id, "console_pool" => some (.object (.pool (s.document id).console))
  | .handle h, "statements" => some (.object (.arena h.arena))
  | .handle h, "index" => some (.int h.index)
  | .guard _ locking, "mode" =>
      some (.text (if locking then Ownership.shared.name else Ownership.single.name))
  | .guard lock true, "blocking" => some (.bool (s.guard lock).isBlocking)
  | .formatter _ indent, "indent" => some (.text indent)
  | .view v, "is_enabled" => some (.bool v.enabled)
  | .view v, "threshold" => some (.int v.threshold)
  | .view _, "logger" => some (.bare 0 "Logger")
  | o, "kind" => o.kind?.map .kind
  | o, name =>
      match o.fixedField? name, o.node? with
      | some v, _ => some v
      | none, some node =>
          match node.partNamed? name with
          | some part => some (.object (.list (s.part node part)))
          | none => node.field? s name
      | none, none => none

end Object

namespace Value

/-- What a value was made with. -/
def field? (s : Store) (v : Value) (name : String) : Option Value :=
  match v, name with
  | .object o, name => o.field? s name
  | .ownership o, "name" => some (.text o.label)
  | .ownership o, "value" => some (.text o.name)
  | .kind k, "name" => some (.text k.name)
  | .kind k, "value" | .kind k, "ordinal" => some (.int k.ordinal)
  | .path p, "name" => some (.text ((Text.Path.ofString p).parts.getLastD ""))
  | .lookalike _ k, "kind" => some k
  | .range start _ _, "start" => some (.int start)
  | .range _ stop _, "stop" => some (.int stop)
  | .range _ _ step, "step" => some (.int step)
  | _, _ => none

/-- An attribute that can be had without any computation. -/
def stored? (s : Store) (v : Value) (name : String) : Option Value :=
  match v.identity?.bind fun i => s.assigned? i name with
  | some assigned => some assigned
  | none => v.field? s name

theorem stored?_of_unassigned {s : Store} (h : s.assigned = []) (v : Value) (name : String) :
    v.stored? s name = v.field? s name := by
  have unassigned (i : Identity) : s.assigned? i name = none := by
    rw [Store.assigned?, h]
    rfl
  simp [stored?, Option.bind, unassigned]
  cases v.identity? <;> rfl

end Value

end NinjaFile
