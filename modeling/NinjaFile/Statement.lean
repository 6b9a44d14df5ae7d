/-!
# Statements

A build file is a list of statements of eight kinds.  Here they are plain data:
what a file says, apart from who holds which part of it.
-/

namespace NinjaFile

/-- A `name = value` line. -/
structure Binding where
  name : String
  value : String
deriving DecidableEq, Repr

namespace Binding

def render (b : Binding) : String := b.name ++ " = " ++ b.value

end Binding

/-- A line of a block: a binding, or the text of something else in its place. -/
inductive BlockLine where
  | binding (b : Binding)
  | text (s : String)
deriving DecidableEq, Repr

namespace BlockLine

def render : BlockLine → String
  | .binding b => b.render
  | .text s => s

@[simp] theorem render_binding (b : Binding) : (binding b).render = b.render := rfl

end BlockLine

inductive Kind where
  | comment
  | rule
  | build
  | binding
  | defaults
  | subninja
  | inclusion
  | pool
deriving DecidableEq, Repr

namespace Kind

def all : List Kind :=
  [.comment, .rule, .build, .binding, .defaults, .subninja, .inclusion, .pool]

/-- The place of a kind in the layout of a file. -/
def ordinal : Kind → Nat
  | .comment => 0
  | .rule => 1
  | .build => 2
  | .binding => 3
  | .defaults => 4
  | .subninja => 5
  | .inclusion => 6
  | .pool => 7

def name : Kind → String
  | .comment => "COMMENT"
  | .rule => "RULE"
  | .build => "BUILD"
  | .binding => "VARIABLE"
  | .defaults => "DEFAULT"
  | .subninja => "SUBNINJA"
  | .inclusion => "INCLUDE"
  | .pool => "POOL"

/-- The word a kind goes by in log lines. -/
def word : Kind → String
  | .comment => "comment"
  | .rule => "rule"
  | .build => "build"
  | .binding => "variable"
  | .defaults => "default"
  | .subninja => "subninja"
  | .inclusion => "include"
  | .pool => "pool"

theorem mem_all (k : Kind) : k ∈ all := by cases k <;> simp [all]

theorem ordinal_injective {a b : Kind} (h : a.ordinal = b.ordinal) : a = b := by
  cases a <;> cases b <;> simp_all [ordinal]

end Kind

/-! ## Path lists of a build -/

inductive Slot where
  | outputs
  | implicitOutputs
  | inputs
  | implicitInputs
  | orderOnlyInputs
  | validations
deriving DecidableEq, Repr

namespace Slot

/-- The slots in the order in which they are declared. -/
def all : List Slot :=
  [.outputs, .implicitOutputs, .inputs, .implicitInputs, .orderOnlyInputs, .validations]

theorem mem_all (s : Slot) : s ∈ all := by cases s <;> simp [all]

end Slot

/-- One thing for each path list of a build. -/
structure Slots (α : Type) where
  outputs : α
  implicitOutputs : α
  inputs : α
  implicitInputs : α
  orderOnlyInputs : α
  validations : α
deriving DecidableEq, Repr

namespace Slots

def get (s : Slots α) : Slot → α
  | .outputs => s.outputs
  | .implicitOutputs => s.implicitOutputs
  | .inputs => s.inputs
  | .implicitInputs => s.implicitInputs
  | .orderOnlyInputs => s.orderOnlyInputs
  | .validations => s.validations

def ofFn (f : Slot → α) : Slots α :=
  ⟨f .outputs, f .implicitOutputs, f .inputs, f .implicitInputs, f .orderOnlyInputs,
    f .validations⟩

def set (s : Slots α) (slot : Slot) (a : α) : Slots α :=
  ofFn fun other => if other = slot then a else s.get other

def map (f : α → β) (s : Slots α) : Slots β :=
  ofFn fun slot => f (s.get slot)

@[simp] theorem get_ofFn (f : Slot → α) (slot : Slot) : (ofFn f).get slot = f slot := by
  cases slot <;> rfl

@[simp] theorem get_map (f : α → β) (s : Slots α) (slot : Slot) :
    (s.map f).get slot = f (s.get slot) := by
  simp [map]

theorem get_set (s : Slots α) (slot other : Slot) (a : α) :
    (s.set slot a).get other = if other = slot then a else s.get other := by
  simp [set]

theorem ext_get {s t : Slots α} (h : ∀ slot, s.get slot = t.get slot) : s = t := by
  cases s; cases t
  have h1 := h .outputs
  have h2 := h .implicitOutputs
  have h3 := h .inputs
  have h4 := h .implicitInputs
  have h5 := h .orderOnlyInputs
  have h6 := h .validations
  simp_all [get]

end Slots

/-- A `build` line with its block. -/
structure Edge where
  ruleName : String
  paths : Slots (List String)
  block : List BlockLine
deriving DecidableEq, Repr

inductive Statement where
  | comment (text : String)
  | rule (name : String) (block : List BlockLine)
  | build (edge : Edge)
  | binding (line : BlockLine)
  | defaults (outputs : List String)
  | subninja (path : String)
  | inclusion (path : String)
  | pool (name : String) (block : List BlockLine) (builtIn : Bool)
deriving DecidableEq, Repr

namespace Statement

def kind : Statement → Kind
  | .comment _ => .comment
  | .rule .. => .rule
  | .build _ => .build
  | .binding _ => .binding
  | .defaults _ => .defaults
  | .subninja _ => .subninja
  | .inclusion _ => .inclusion
  | .pool .. => .pool

/-- The lines that are indented. -/
def block : Statement → List BlockLine
  | .rule _ block => block
  | .build edge => edge.block
  | .pool _ block _ => block
  | _ => []

/-- Built-in pools exist without being declared and are not written. -/
def isHidden : Statement → Bool
  | .pool _ _ builtIn => builtIn
  | _ => false

end Statement

end NinjaFile
