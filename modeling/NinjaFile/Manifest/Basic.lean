import NinjaFile.Json.Token
import NinjaFile.Statement

/-!
# Manifests

A manifest says what a build file should contain.  A rule may bring builds of its
own; every other declaration becomes one statement.
-/

namespace NinjaFile

namespace Manifest

/-- The paths and bindings of a build, without the rule it uses. -/
structure BuildPlan where
  paths : Slots (List String)
  dyndep : Option String
  bindings : List Binding
deriving DecidableEq, Repr

inductive Declaration where
  | rule (name command : String) (pool : Option String) (bindings : List Binding)
      (builds : List BuildPlan)
  | build (plan : BuildPlan) (rule : String)
  | phony (plan : BuildPlan)
  | pool (name : String) (depth : Nat) (bindings : List Binding)
  | binding (b : Binding)
  | comment (text : String)
  | defaults (outputs : List String)
  | subninja (path : String)
  | inclusion (path : String)
  /-- Something of a type that no manifest text gives. -/
  | foreign (typeName : String)
deriving DecidableEq, Repr

end Manifest

structure Manifest where
  escape : Bool
  threadSafe : Bool
  declarations : List Manifest.Declaration
deriving DecidableEq, Repr

namespace Manifest

/-- The manifest with one more declaration at an index, or at the end if it has
fewer; a negative index counts from the end. -/
def insertAt (m : Manifest) (i : Int) (d : Declaration) : Manifest :=
  let n := m.declarations.length
  let place := (if i < 0 then max 0 (i + n) else min i n).toNat
  { m with declarations := m.declarations.take place ++ d :: m.declarations.drop place }

/-! ## As JSON -/

/-- The word by which a declaration is recognised. -/
inductive Tag where
  | rule
  | build
  | phony
  | pool
  | binding
  | comment
  | defaults
  | subninja
  | inclusion
deriving DecidableEq, Repr

namespace Tag

def name : Tag → String
  | .rule => "rule"
  | .build => "build"
  | .phony => "phony"
  | .pool => "pool"
  | .binding => "variable"
  | .comment => "comment"
  | .defaults => "default"
  | .subninja => "subninja"
  | .inclusion => "include"

def all : List Tag :=
  [.rule, .build, .phony, .pool, .binding, .comment, .defaults, .subninja, .inclusion]

def ofName? (name : String) : Option Tag := all.find? fun tag => tag.name == name

theorem ofName?_name (tag : Tag) : ofName? tag.name = some tag := by
  cases tag <;> decide

end Tag

def jsonTexts (items : List String) : Json := .list (items.map .text)

def jsonOptional : Option String → Json
  | none => .null
  | some s => .text s

def bindingEntries (b : Binding) : List (String × Json) :=
  [("name", .text b.name), ("value", .text b.value)]

def jsonBindings (bs : List Binding) : Json := .list (bs.map fun b => .object (bindingEntries b))

namespace BuildPlan

def entries (plan : BuildPlan) : List (String × Json) :=
  [("outputs", jsonTexts plan.paths.outputs),
    ("inputs", jsonTexts plan.paths.inputs),
    ("implicit_inputs", jsonTexts plan.paths.implicitInputs),
    ("order_only_inputs", jsonTexts plan.paths.orderOnlyInputs),
    ("validations", jsonTexts plan.paths.validations),
    ("implicit_outputs", jsonTexts plan.paths.implicitOutputs),
    ("dyndep", jsonOptional plan.dyndep),
    ("variables", jsonBindings plan.bindings)]

end BuildPlan

namespace Declaration

def tagged (tag : Tag) (entries : List (String × Json)) : Json :=
  .object (("kind", .text tag.name) :: entries)

def toJson : Declaration → Json
  | .rule name command poolName bs builds =>
      tagged .rule
        [("name", .text name), ("command", .text command), ("pool", jsonOptional poolName),
          ("variables", jsonBindings bs),
          ("builds", .list (builds.map fun plan => .object plan.entries))]
  | .build plan ruleName => tagged .build (plan.entries ++ [("rule", .text ruleName)])
  | .phony plan => tagged .phony plan.entries
  | .pool name depth bs =>
      tagged .pool
        [("name", .text name), ("depth", .int depth), ("variables", jsonBindings bs)]
  | .binding b => tagged .binding (bindingEntries b)
  | .comment text => tagged .comment [("text", .text text)]
  | .defaults outputs => tagged .defaults [("outputs", jsonTexts outputs)]
  | .subninja path => tagged .subninja [("path", .text path)]
  | .inclusion path => tagged .inclusion [("path", .text path)]
  | .foreign _ => .null

end Declaration

/-- A manifest with every field spelled out. -/
def toJson (m : Manifest) : Json :=
  .object
    [("escape", .bool m.escape), ("thread_safe", .bool m.threadSafe),
      ("statements", .list (m.declarations.map Declaration.toJson))]

end Manifest

end NinjaFile
