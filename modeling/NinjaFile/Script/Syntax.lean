import NinjaFile.Value

/-!
# Scripts

A script is a list of steps, each of which does one thing with objects that are
known by name.  Steps nest: a step can run others for every item of a list, inside
a guard, in a new thread, or as the last steps of a lazy source.
-/

namespace NinjaFile.Script

/-- What a script can make. -/
inductive Class where
  | document
  | rule
  | build
  | pool
  | comment
  | defaults
  | subninja
  | inclusion
  | binding
  | list
  | arena
  | handle (expected : Expected)
  | cooperativeGuard
  | lockGuard
  | formatter
  | mixin (m : Mixin)
  | manifestError
  | borrowError
  | kindError
deriving DecidableEq, Repr

/-- What can be asked of a value. -/
inductive Method where
  /-- How it is shown. -/
  | display
  /-- What it says. -/
  | text
  | iterate
  | length
  | truth
  | item
  | named (name : String)
deriving DecidableEq, Repr

mutual

/-- A value as it is written in a script. -/
inductive Expr where
  /-- A value without parts and without an identity. -/
  | constant (v : Value)
  | float (text : String)
  /-- Bytes in hexadecimal. -/
  | bytes (form : ByteForm) (digits : String)
  | ownership (name : Expr)
  | range (bounds : List Expr)
  | list (items : List Expr)
  | tuple (items : List Expr)
  | mapping (entries : List (Expr × Expr))
  /-- A lazy source with its items, its last steps, and what it fails with. -/
  | source (items : List Expr) (during : List Step) (raises : Option String)
  | bare
  | lookalike (kind : Expr)
  | named (name : String)

/-- A step, and the name its result is bound to. -/
inductive Step where
  | mk (binds : Option String) (deed : Deed)

inductive Deed where
  | make (c : Class) (args : List Expr) (named : List (String × Expr))
  | call (on : String) (method : Method) (args : List Expr) (named : List (String × Expr))
  | get (on : String) (member : String)
  | set (on : String) (member : String) (v : Expr)
  | compare (a b : Expr)
  | ordinal (on : String)
  | load (path : String)
  | each (on : String) (steps : List Step)
  | hold (on : String) (mode : Mode) (steps : List Step) (raises : Option String)
  | fork (steps : List Step)

end

instance : Inhabited Expr := ⟨.bare⟩
instance : Inhabited Deed := ⟨.load ""⟩
instance : Inhabited Step := ⟨.mk none default⟩

end NinjaFile.Script
