import NinjaFile.Manifest.Basic
import NinjaFile.Text.Escape

/-!
# What a manifest asks for

The statements of a manifest, computed from its declarations alone.  Nothing is looked up
and nothing is attached: a rule has its bindings from the start, and a build names its
rule.
-/

namespace NinjaFile

namespace Manifest

/-- A path as it goes into a document. -/
def pathText (escape : Bool) (k : Text.Escape.Context) (path : String) : String :=
  if escape then Text.Escape.escape k path else path

/-- A binding, if there is a value for it. -/
def optional (name : String) (value : Option String) : List Binding :=
  value.toList.map fun text => ⟨name, text⟩

namespace BuildPlan

/-- What a path stands for depends on the side of the build it is on. -/
def context : Slot → Text.Escape.Context
  | .outputs | .implicitOutputs => .output
  | .inputs | .implicitInputs | .orderOnlyInputs | .validations => .path

/-- The build that a plan asks for. -/
def edge (escape : Bool) (ruleName : String) (plan : BuildPlan) : Edge where
  ruleName := ruleName
  paths := .ofFn fun slot => (plan.paths.get slot).map (pathText escape (context slot))
  block := (optional "dyndep" plan.dyndep ++ plan.bindings).map .binding

end BuildPlan

namespace Declaration

/-- The statements that a declaration asks for. -/
def expand (escape : Bool) : Declaration → List Statement
  | .rule name command poolName bindings builds =>
      .rule name ((⟨"command", command⟩ :: optional "pool" poolName ++ bindings).map .binding) ::
        builds.map fun plan => .build (plan.edge escape name)
  | .build plan ruleName => [.build (plan.edge escape ruleName)]
  | .phony plan => [.build (plan.edge escape "phony")]
  | .pool name depth bindings =>
      [.pool name ((⟨"depth", toString depth⟩ :: bindings).map .binding) false]
  | .binding b => [.binding (.binding b)]
  | .comment text => [.comment text]
  | .defaults outputs => [.defaults (outputs.map (pathText escape .path))]
  | .subninja path => [.subninja (pathText escape .path path)]
  | .inclusion path => [.inclusion (pathText escape .path path)]
  | .foreign _ => []

/-- The declaration is one of a rule of this name. -/
def declaresRule (name : String) : Declaration → Bool
  | .rule other .. => other == name
  | _ => false

def declaresPool (name : String) : Declaration → Bool
  | .pool other .. => other == name
  | _ => false

end Declaration

/-- The statements of declarations, one after the other. -/
def expandAll (escape : Bool) (declarations : List Declaration) : List Statement :=
  declarations.flatMap (·.expand escape)

@[simp] theorem expandAll_append (escape : Bool) (done rest : List Declaration) :
    expandAll escape (done ++ rest) = expandAll escape done ++ expandAll escape rest :=
  List.flatMap_append

@[simp] theorem expandAll_singleton (escape : Bool) (declaration : Declaration) :
    expandAll escape [declaration] = declaration.expand escape := by
  simp [expandAll]

theorem visible_expandAll (escape : Bool) (declarations : List Declaration) :
    ∀ st ∈ expandAll escape declarations, st.isHidden = false := by
  intro st hst
  obtain ⟨declaration, -, hst⟩ := List.mem_flatMap.mp hst
  cases declaration with
  | rule name command poolName bindings builds =>
      rcases List.mem_cons.mp hst with rfl | hst
      · rfl
      · obtain ⟨plan, -, rfl⟩ := List.mem_map.mp hst
        rfl
  | foreign typeName => cases hst
  | _ =>
      rw [List.mem_singleton.mp hst]
      rfl

/-- Where the statements of the last declaration begin that is as asked for. -/
def lastSlot? (escape : Bool) (p : Declaration → Bool) : List Declaration → Option Nat
  | [] => none
  | declaration :: rest =>
      match lastSlot? escape p rest with
      | some k => some ((declaration.expand escape).length + k)
      | none => if p declaration then some 0 else none

variable {escape : Bool} {p : Declaration → Bool}

theorem lastSlot?_concat (done : List Declaration) (declaration : Declaration) :
    lastSlot? escape p (done ++ [declaration]) =
      if p declaration then some (expandAll escape done).length
      else lastSlot? escape p done := by
  induction done with
  | nil =>
      rw [List.nil_append, lastSlot?, lastSlot?]
      rfl
  | cons first rest ih =>
      rw [List.cons_append, lastSlot?, ih, lastSlot?]
      by_cases hp : p declaration
      · simp [hp, expandAll]
      · simp [hp]

theorem exists_of_lastSlot? {done : List Declaration} {k : Nat}
    (h : lastSlot? escape p done = some k)
    (fruitful : ∀ declaration, p declaration → declaration.expand escape ≠ []) :
    ∃ declaration, p declaration ∧
      (expandAll escape done)[k]? = (declaration.expand escape)[0]? := by
  induction done generalizing k with
  | nil => cases h
  | cons first rest ih =>
      have split : expandAll escape (first :: rest) =
          first.expand escape ++ expandAll escape rest := rfl
      rw [split]
      rw [lastSlot?] at h
      cases hrest : lastSlot? escape p rest with
      | some j =>
          rw [hrest] at h
          obtain rfl : (first.expand escape).length + j = k := Option.some.inj h
          obtain ⟨declaration, hp, heq⟩ := ih hrest
          refine ⟨declaration, hp, ?_⟩
          rw [List.getElem?_append_right (Nat.le_add_right _ _), Nat.add_sub_cancel_left, heq]
      | none =>
          rw [hrest] at h
          by_cases hp : p first
          · rw [if_pos hp] at h
            obtain rfl : 0 = k := Option.some.inj h
            refine ⟨first, hp, List.getElem?_append_left ?_⟩
            exact List.length_pos_iff.mpr (fruitful first hp)
          · rw [if_neg hp] at h
            cases h

end Manifest

/-- The statements that a manifest asks for. -/
def Manifest.expand (m : Manifest) : List Statement := expandAll m.escape m.declarations

/-- Where the last rule of a name is. -/
def Manifest.ruleSlot? (m : Manifest) (name : String) : Option Nat :=
  lastSlot? m.escape (·.declaresRule name) m.declarations

def Manifest.poolSlot? (m : Manifest) (name : String) : Option Nat :=
  lastSlot? m.escape (·.declaresPool name) m.declarations

end NinjaFile
