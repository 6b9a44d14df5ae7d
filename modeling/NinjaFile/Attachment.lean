import NinjaFile.Arena

/-!
# Attachments

Bindings and paths that are added to a rule, a build or a pool, directly or
through a handle.  The values of a binding are turned into text before its list is
looked up; the list of a path attachment is looked up before its paths are taken
from their source.
-/

namespace NinjaFile

/-! ## Receivers -/

/-- What something can be attached to. -/
inductive Receiver where
  | node (node : Node)
  | handle (h : Handle)
  | mixin (m : Mixin)
deriving DecidableEq, Repr

namespace Receiver

def resolve : Receiver → Action Node
  | .node n => return n
  | .handle h => h.node
  | .mixin _ => .fail .notImplemented

/-- What is attached to goes into this part. -/
def part (r : Receiver) (part : Part) : Action Value := do
  let node ← r.resolve
  Action.read fun s => s.partValue node part

end Receiver

namespace Value

/-- Adds to what should be a list; a handle adds to the arena it points into. -/
def add (v item : Value) : Action Unit :=
  match v with
  | .object (.list id) => do
      let _ ← id.add item
      return ()
  | .object (.handle h) => do
      let _ ← (← h.statements).append item
      return ()
  | v => .fail (.noAttribute v.typeName "add")

/-- The list that a value should be, to be extended. -/
def toExtend : Value → Except Fault ListId
  | .object (.list id) => .ok id
  | v => .error (.noAttribute v.typeName "extend")

end Value

namespace Object

def receiver? : Object → Option Receiver
  | .handle h => if h.expected = .any then none else some (.handle h)
  | .mixin _ m => some (.mixin m)
  | o => o.node?.map .node

end Object

/-! ## Bindings -/

/-- A binding with the texts of two values, as an object of its own. -/
def makeBinding (name value : Value) : Action Value := do
  let name ← Program.ofExcept name.toArgument
  let value ← Program.ofExcept value.toArgument
  .update fun s => (.object (.binding s.serial ⟨name, value⟩), { s with serial := s.serial + 1 })

/-- Pairs of a name and a value that are attached one after the other. -/
abbrev Attachment := List (Value × Value)

namespace Attachment

def one (name : String) (value : Value) : Attachment := [(.text name, value)]

def depfile (v : Value) : Attachment := one "depfile" v
def depsGcc : Attachment := one "deps" (.text "gcc")
def depsMsvc : Attachment := one "deps" (.text "msvc")
def depsMsvcPrefix (v : Value) : Attachment := depsMsvc ++ one "msvc_deps_prefix" v
def description (v : Value) : Attachment := one "description" v
def generator : Attachment := one "generator" (.text "1")
def inNewline (v : Value) : Attachment := one "in_newline" v
def restat : Attachment := one "restat" (.text "1")
def rspfile (file content : Value) : Attachment :=
  one "rspfile" file ++ one "rspfile_content" content
def poolConsole : Attachment := one "pool" (.text "console")
def dyndep (v : Value) : Attachment := one "dyndep" v

end Attachment

namespace Receiver

def bind (r : Receiver) (name value : Value) : Action Unit := do
  let binding ← makeBinding name value
  (← r.part .bindings).add binding

def attach (r : Receiver) : Attachment → Action Unit
  | [] => return ()
  | (name, value) :: rest => do
      r.bind name value
      r.attach rest

/-- Runs in the pool that a value names. -/
def usePool (r : Receiver) (pool : Value) : Action Unit := do
  let name ← pool.member "name"
  r.attach (.one "pool" name)

/-! ## Paths -/

/-- Adds the paths of a value to a list of a build. -/
def addPaths (r : Receiver) (slot : Slot) (paths : Value) : Action Unit := do
  let list ← Program.ofExcept (← r.part (.paths slot)).toExtend
  let texts ← paths.arguments
  list.extend (texts.map .text)

end Receiver

end NinjaFile
