import NinjaFile.Document
import NinjaFile.Proofs.Manifest.Expansion

/-!
# What declarations refer to

A rule may name a pool and a build names a rule.  What they name has to be declared by
then, or to be there in every document; where it is declared later does not count.
-/

namespace NinjaFile

namespace Manifest

variable {escape : Bool} {p : Declaration → Bool}

theorem lastSlot?_eq_none {done : List Declaration} :
    lastSlot? escape p done = none ↔ done.any p = false := by
  induction done with
  | nil => exact ⟨fun _ => rfl, fun _ => rfl⟩
  | cons first rest ih =>
      rw [lastSlot?, List.any_cons]
      cases hrest : lastSlot? escape p rest with
      | some k =>
          have some : rest.any p = true := by
            rw [← Bool.not_eq_false, ← ih, hrest]
            exact Option.some_ne_none k
          simp [some]
      | none =>
          rw [ih.mp hrest, Bool.or_false]
          cases p first <;> simp

/-- What is wrong with a declaration, if those before it are all that there is. -/
def Declaration.fault? (done : List Declaration) : Declaration → Option ReferenceFault
  | .rule name _ (some poolName) _ _ =>
      if poolName = DocumentId.consoleName ∨ done.any (·.declaresPool poolName) then none
      else some (.undeclaredPool name poolName)
  | .build _ ruleName =>
      if ruleName = DocumentId.phonyName ∨ done.any (·.declaresRule ruleName) then none
      else some (.undeclaredRule ruleName)
  | .foreign typeName => some (.unsupported typeName)
  | _ => none

/-- The first fault of declarations that come after others, and its position, if theirs
begin at a position. -/
def firstFault? (done : List Declaration) (position : Nat) :
    List Declaration → Option (ReferenceFault × Nat)
  | [] => none
  | declaration :: rest =>
      match declaration.fault? done with
      | some fault => some (fault, position)
      | none => firstFault? (done ++ [declaration]) (position + 1) rest

end Manifest

open Manifest

/-- What is wrong at a position of a manifest. -/
inductive Manifest.Wrong (m : Manifest) (p : Nat) : ReferenceFault → Prop where
  | pool {name command : String} {pool : String} {bindings : List Binding}
      {builds : List BuildPlan}
      (declared : m.declarations[p]? = some (.rule name command (some pool) bindings builds))
      (own : pool ≠ DocumentId.consoleName)
      (before : ∀ q < p, ∀ depth bindings,
        m.declarations[q]? ≠ some (.pool pool depth bindings)) :
      m.Wrong p (.undeclaredPool name pool)
  | rule {plan : BuildPlan} {rule : String}
      (declared : m.declarations[p]? = some (.build plan rule))
      (own : rule ≠ DocumentId.phonyName)
      (before : ∀ q < p, ∀ command pool bindings builds,
        m.declarations[q]? ≠ some (.rule rule command pool bindings builds)) :
      m.Wrong p (.undeclaredRule rule)
  | kind {typeName : String} (declared : m.declarations[p]? = some (.foreign typeName)) :
      m.Wrong p (.unsupported typeName)

namespace Manifest

variable {m : Manifest} {done rest : List Declaration} {declaration : Declaration}
  {fault : ReferenceFault} {p : Nat}

/-! ## Declared before -/

theorem any_declaresPool {pool : String} : done.any (·.declaresPool pool) = false ↔
    ∀ q < done.length, ∀ depth bindings, done[q]? ≠ some (.pool pool depth bindings) := by
  rw [List.any_eq_false]
  refine ⟨fun h q _ depth bindings found => ?_, fun h declaration hmem => ?_⟩
  · exact h _ (List.mem_of_getElem? found) (by simp [Declaration.declaresPool])
  · obtain ⟨q, hq, rfl⟩ := List.getElem_of_mem hmem
    intro declares
    cases found : done[q] with
    | pool other depth bindings =>
        rw [found] at declares
        obtain rfl : other = pool := by simpa [Declaration.declaresPool] using declares
        exact h q hq depth bindings (by rw [List.getElem?_eq_getElem hq, found])
    | _ =>
        rw [found] at declares
        cases declares

theorem any_declaresRule {rule : String} : done.any (·.declaresRule rule) = false ↔
    ∀ q < done.length, ∀ command pool bindings builds,
      done[q]? ≠ some (.rule rule command pool bindings builds) := by
  rw [List.any_eq_false]
  refine ⟨fun h q _ command pool bindings builds found => ?_, fun h declaration hmem => ?_⟩
  · exact h _ (List.mem_of_getElem? found) (by simp [Declaration.declaresRule])
  · obtain ⟨q, hq, rfl⟩ := List.getElem_of_mem hmem
    intro declares
    cases found : done[q] with
    | rule other command pool bindings builds =>
        rw [found] at declares
        obtain rfl : other = rule := by simpa [Declaration.declaresRule] using declares
        exact h q hq command pool bindings builds (by rw [List.getElem?_eq_getElem hq, found])
    | _ =>
        rw [found] at declares
        cases declares

theorem Wrong.lt (h : m.Wrong p fault) : p < m.declarations.length := by
  cases h with
  | pool declared => exact (List.getElem?_eq_some_iff.mp declared).1
  | rule declared => exact (List.getElem?_eq_some_iff.mp declared).1
  | kind declared => exact (List.getElem?_eq_some_iff.mp declared).1

theorem fault?_rule {name command pool : String} {bindings : List Binding} {builds : List BuildPlan} :
    Declaration.fault? done (.rule name command (some pool) bindings builds) = some fault ↔
      (pool ≠ DocumentId.consoleName ∧ ∀ q < done.length, ∀ depth bindings,
        done[q]? ≠ some (.pool pool depth bindings)) ∧ .undeclaredPool name pool = fault := by
  rw [Declaration.fault?, Option.ite_none_left_eq_some, not_or, Bool.not_eq_true, any_declaresPool,
    Option.some.injEq]

theorem fault?_build {plan : BuildPlan} {rule : String} :
    Declaration.fault? done (.build plan rule) = some fault ↔
      (rule ≠ DocumentId.phonyName ∧ ∀ q < done.length, ∀ command pool bindings builds,
        done[q]? ≠ some (.rule rule command pool bindings builds)) ∧ .undeclaredRule rule = fault := by
  rw [Declaration.fault?, Option.ite_none_left_eq_some, not_or, Bool.not_eq_true, any_declaresRule,
    Option.some.injEq]

/-- What is wrong with a declaration depends on nothing but those before it. -/
theorem fault?_eq_some (split : m.declarations = done ++ declaration :: rest) :
    declaration.fault? done = some fault ↔ m.Wrong done.length fault := by
  have here : m.declarations[done.length]? = some declaration := by
    rw [split, List.getElem?_append_right (Nat.le_refl _), Nat.sub_self]
    rfl
  have earlier (q : Nat) (hq : q < done.length) : m.declarations[q]? = done[q]? := by
    rw [split, List.getElem?_append_left hq]
  constructor
  · intro h
    cases declaration with
    | rule name command pool bindings builds =>
        cases pool with
        | none => cases h
        | some pool =>
            obtain ⟨⟨own, before⟩, rfl⟩ := fault?_rule.mp h
            exact .pool here own fun q hq => earlier q hq ▸ before q hq
    | build plan rule =>
        obtain ⟨⟨own, before⟩, rfl⟩ := fault?_build.mp h
        exact .rule here own fun q hq => earlier q hq ▸ before q hq
    | foreign typeName =>
        cases h
        exact .kind here
    | _ => cases h
  · intro h
    cases h with
    | pool declared own before =>
        cases here.symm.trans declared
        exact fault?_rule.mpr ⟨⟨own, fun q hq => earlier q hq ▸ before q hq⟩, rfl⟩
    | rule declared own before =>
        cases here.symm.trans declared
        exact fault?_build.mpr ⟨⟨own, fun q hq => earlier q hq ▸ before q hq⟩, rfl⟩
    | kind declared =>
        cases here.symm.trans declared
        rfl

/-! ## The first fault -/

/-- The first fault is the one at the least position where something is wrong. -/
theorem firstFault?_eq_some (split : m.declarations = done ++ rest)
    (right : ∀ q < done.length, ∀ fault, ¬ m.Wrong q fault) :
    firstFault? done done.length rest = some (fault, p) ↔
      m.Wrong p fault ∧ ∀ q < p, ∀ other, ¬ m.Wrong q other := by
  induction rest generalizing done with
  | nil =>
      refine ⟨fun h => (by cases h), fun first => ?_⟩
      refine absurd first.1 (right p ?_ fault)
      rw [← List.append_nil done, ← split]
      exact first.1.lt
  | cons declaration rest ih =>
      rw [firstFault?]
      cases hfault : declaration.fault? done with
      | some first =>
          have wrong := (fault?_eq_some split).mp hfault
          refine ⟨fun h => ?_, fun least => ?_⟩
          · cases h
            exact ⟨wrong, right⟩
          · obtain ⟨wrong', least⟩ := least
            have same : p = done.length := by
              refine Nat.le_antisymm (Nat.not_lt.mp fun hlt => least _ hlt _ wrong) ?_
              exact Nat.not_lt.mp fun hlt => right p hlt _ wrong'
            subst same
            rw [← fault?_eq_some split, hfault] at wrong'
            cases wrong'
            rfl
      | none =>
          have next : (done ++ [declaration]).length = done.length + 1 := by simp
          rw [← next]
          refine ih (by rw [split, List.append_assoc]; rfl) fun q hq other wrong => ?_
          rw [next, Nat.lt_succ_iff_lt_or_eq] at hq
          rcases hq with hq | rfl
          · exact right q hq other wrong
          · rw [← fault?_eq_some split, hfault] at wrong
            cases wrong

end Manifest

end NinjaFile
