import Mathlib.Data.List.Nodup
import NinjaFile.Proofs.Document.Written
import NinjaFile.Proofs.Manifest.Refusal

/-!
# Building more than once

A builder that is called again still has the rules of its last document in its table.  No
build ever gets to one of them: a name that has been declared by then stands for the new rule,
and a name that has not been declared was not in the table before either, as a call stops
where something is wrong.
-/

namespace NinjaFile

open Program Store Action Manifest

/-! ## Tables by name -/

section Tables

variable {α β : Type} {l l' : List (String × α)}

theorem keys_setKey (key : String) (a : α) (l : List (String × α)) :
    (setKey key a l).map Prod.fst =
      if key ∈ l.map Prod.fst then l.map Prod.fst else l.map Prod.fst ++ [key] := by
  induction l with
  | nil => rfl
  | cons head rest ih =>
      obtain ⟨k, b⟩ := head
      rw [setKey]
      by_cases heq : k = key
      · simp [heq]
      · rw [if_neg heq, List.map_cons, ih]
        by_cases mem : key ∈ rest.map Prod.fst <;> simp [mem, Ne.symm heq]

theorem nodup_setKey (key : String) (a : α) (h : (l.map Prod.fst).Nodup) :
    ((setKey key a l).map Prod.fst).Nodup := by
  rw [keys_setKey]
  split
  · exact h
  · next new => exact List.nodup_append.mpr ⟨h, List.nodup_singleton key, by grind⟩

theorem lookup_map (f : α → β) (l : List (String × α)) (key : String) :
    (l.map fun e => (e.1, f e.2)).lookup key = (l.lookup key).map f := by
  induction l with
  | nil => rfl
  | cons head rest ih =>
      rw [List.map_cons, List.lookup_cons, List.lookup_cons, ih]
      cases key == head.1 <;> rfl

namespace Builder

end Builder

end Tables

/-! ## What a builder learns -/

namespace Builder

/-- What a declaration puts into the tables of a builder. -/
inductive Lesson where
  | nothing
  | rule (name : String) (h : Handle)
  | pool (name : String) (entry : PoolEntry)

def learn (b : Builder) : Lesson → Builder
  | .nothing => b
  | .rule name h => b.setRule name h
  | .pool name entry => b.setPool name entry

/-- The builder is like another one and has all of its rules, and maybe more. -/
structure Covers (b c : Builder) : Prop where
  same : b = { c with rules := b.rules }
  rules : ∀ name h, c.rules.lookup name = some h → b.rules.lookup name = some h

theorem addBuilds_withRules (c : Builder) (rules : List (String × Handle)) (rule : Handle)
    (plans : List BuildPlan) :
    ({ c with rules := rules } : Builder).addBuilds rule plans = c.addBuilds rule plans := by
  induction plans with
  | nil => rfl
  | cons plan rest ih =>
      rw [addBuilds, addBuilds, ih]
      rfl

namespace Covers

variable {b c : Builder} {d : DocumentId} {s : Store}
  {Q : Builder × Except Fault Unit → Store → Prop}

theorem learn (h : Covers b c) (lesson : Lesson) : Covers (b.learn lesson) (c.learn lesson) := by
  obtain ⟨same, rules⟩ := h
  cases lesson with
  | nothing => exact ⟨same, rules⟩
  | pool name entry =>
      refine ⟨?_, rules⟩
      rw [Builder.learn, setPool]
      conv_lhs => rw [same]
      rfl
  | rule name h =>
      refine ⟨?_, fun other h' found => ?_⟩
      · rw [Builder.learn, setRule]
        conv_lhs => rw [same]
        rfl
      · rw [Builder.learn, setRule, lookup_setKey] at found ⊢
        by_cases heq : other = name
        · rwa [if_pos heq] at found ⊢
        · rw [if_neg heq] at found ⊢
          exact rules other h' found

/-- A builder that has more rules does the same with a declaration and learns the same,
unless it has the rule of a build that the other one does not have. -/
theorem returns_add (hb : Covers b c) {position : Nat} {declaration : Declaration}
    (known : ∀ plan rule, declaration = .build plan rule → rule ≠ DocumentId.phonyName →
      c.rules.lookup rule = none → b.rules.lookup rule = none)
    (h : Returns (c.add d position declaration) s Q) :
    Returns (b.add d position declaration) s fun r s' =>
      ∃ lesson, r.1 = b.learn lesson ∧ Q (c.learn lesson, r.2) s' := by
  obtain ⟨same, rules⟩ := hb
  generalize b.rules = rs at *
  subst same
  have plain {p : Action Unit} (h : Returns (do return (c, ← p.attempt)) s Q) :
      Returns (do return (({ c with rules := rs } : Builder), ← p.attempt)) s fun r s' =>
        ∃ lesson, r.1 = ({ c with rules := rs } : Builder).learn lesson ∧
          Q (c.learn lesson, r.2) s' :=
    returns_then (returns_of_bind h) fun outcome s' hQ =>
      returns_pure ⟨.nothing, rfl, of_returns_pure hQ⟩
  cases declaration with
  | rule name command pool bindings builds =>
      refine returns_then (returns_of_bind h) fun r s₁ h => ?_
      cases r with
      | error fault => exact returns_pure ⟨.nothing, rfl, of_returns_pure h⟩
      | ok hd =>
          have added := returns_of_bind h
          rw [setRule, addBuilds_withRules] at added
          change Returns (_ >>= _) s₁ _
          rw [setRule, addBuilds_withRules, addBuilds_withRules]
          exact returns_then added fun outcome s₂ hQ =>
            returns_pure ⟨.rule name hd, rfl, of_returns_pure hQ⟩
  | pool name depth bindings =>
      refine returns_then (returns_of_bind h) fun r s₁ h => ?_
      cases r with
      | error fault => exact returns_pure ⟨.nothing, rfl, of_returns_pure h⟩
      | ok hd => exact returns_pure ⟨.pool name (.declared hd), rfl, of_returns_pure h⟩
  | build plan rule =>
      have same : ({ c with rules := rs } : Builder).addBuild d position plan rule =
          c.addBuild d position plan rule := by
        rw [addBuild, addBuild]
        by_cases own : rule = DocumentId.phonyName
        · rw [if_pos own, if_pos own]
          rfl
        · have found : rs.lookup rule = c.rules.lookup rule := by
            cases hc : c.rules.lookup rule with
            | none => exact known plan rule rfl own hc
            | some hd => exact rules rule hd hc
          rw [if_neg own, if_neg own, found]
          rfl
      rw [add, same]
      exact plain h
  | foreign typeName => exact returns_pure ⟨.nothing, rfl, of_returns_pure h⟩
  | _ => exact plain h

end Covers

end Builder

/-! ## Declarations before a fault -/

namespace Manifest

variable {done rest : List Declaration}

/-- Declarations with those after them that come before the first fault. -/
def beforeFault (done : List Declaration) : List Declaration → List Declaration
  | [] => done
  | declaration :: rest =>
      match declaration.fault? done with
      | some _ => done
      | none => beforeFault (done ++ [declaration]) rest

theorem beforeFault_of_right {position : Nat} (h : firstFault? done position rest = none) :
    beforeFault done rest = done ++ rest := by
  induction rest generalizing done position with
  | nil => exact (List.append_nil done).symm
  | cons declaration rest ih =>
      rw [firstFault?] at h
      rw [beforeFault]
      cases hfault : declaration.fault? done with
      | some fault =>
          rw [hfault] at h
          cases h
      | none =>
          rw [hfault] at h
          rw [ih h, List.append_assoc]
          rfl

theorem prefix_beforeFault (done rest : List Declaration) : done <+: beforeFault done rest := by
  induction rest generalizing done with
  | nil => exact List.prefix_rfl
  | cons declaration rest ih =>
      rw [beforeFault]
      split
      · exact List.prefix_rfl
      · exact (List.prefix_append done [declaration]).trans (ih _)

theorem any_beforeFault {p : Declaration → Bool} (h : done.any p = true) :
    (beforeFault done rest).any p = true := by
  obtain ⟨declaration, mem, hp⟩ := List.any_eq_true.mp h
  exact List.any_eq_true.mpr ⟨declaration, (prefix_beforeFault done rest).subset mem, hp⟩

end Manifest

/-! ## Builders that have been called -/

/-- A builder of a manifest that has rules of some declarations and no others. -/
structure Builder.Familiar (m : Manifest) (config : List (Value × Value))
    (known : List Declaration) (b : Builder) : Prop where
  manifest : b.manifest = m
  config : b.config = (ofManifest m config).config
  ruleKeys : (b.rules.map Prod.fst).Nodup
  poolKeys : (b.pools.map Prod.fst).Nodup
  rules : ∀ name, b.rules.lookup name ≠ none → known.any (·.declaresRule name) = true

section Calls

variable {m : Manifest} {config : List (Value × Value)} {known done rest : List Declaration}
  {given : Store} {d : DocumentId} {a : Arena} {b c : Builder} {s : Store}

theorem Builder.Familiar.learn (h : Familiar m config known b) {lesson : Lesson}
    (new : ∀ name, (c.learn lesson).rules.lookup name ≠ none →
      known.any (·.declaresRule name) = true) : Familiar m config known (b.learn lesson) := by
  cases lesson with
  | nothing => exact h
  | pool name entry => exact { h with poolKeys := nodup_setKey _ _ h.poolKeys }
  | rule name hd =>
      refine { h with ruleKeys := nodup_setKey _ _ h.ruleKeys, rules := fun other found => ?_ }
      by_cases heq : other = name
      · refine new other ?_
        rw [Builder.learn, setRule, lookup_setKey, if_pos heq]
        exact Option.some_ne_none hd
      · rw [Builder.learn, setRule, lookup_setKey, if_neg heq] at found
        exact h.rules other found

namespace Replayed

theorem declared (h : Replayed m given d a done b s) {name : String}
    (found : b.rules.lookup name ≠ none) : done.any (·.declaresRule name) = true := by
  rwa [ne_eq, h.lookup_rule, Bool.not_eq_false] at found

/-- A builder that has no rule beyond those that were declared is as one that is new. -/
theorem covered (h : Replayed m given d a done c s) (hb : b.Covers c)
    (rules : ∀ name, b.rules.lookup name ≠ none → done.any (·.declaresRule name) = true) :
    Replayed m given d a done b s where
  manifest := (congrArg Builder.manifest hb.same).trans h.manifest
  building := h.building
  rules name := by
    have entry := h.rules name
    cases hslot : lastSlot? m.escape (·.declaresRule name) done with
    | some k =>
        rw [hslot] at entry
        obtain ⟨hd, found, marks⟩ := entry
        exact ⟨hd, hb.rules name hd found, marks⟩
    | none =>
        by_contra found
        have := rules name found
        rw [lastSlot?_eq_none.mp hslot] at this
        cases this
  pools name := by
    have same : b.pools = c.pools := by rw [hb.same]
    rw [same]
    exact h.pools name

/-- The builder that has more rules looks up none that the other one does not have. -/
theorem returns_addAll_covering (h : Replayed m given d a done c s) (hb : b.Covers c)
    (familiar : b.Familiar m config (beforeFault done rest)) (position : Nat) :
    Returns (b.addAll d position rest) s fun r s' =>
      r.1.Familiar m config (beforeFault done rest) ∧ ∃ c', r.1.Covers c' ∧
        Outcome m given d a (done ++ rest) (firstFault? done position rest) (c', r.2) s' := by
  -- All along, `c` is what a builder would be by now that had been new at the start.
  induction rest generalizing b c s done position with
  | nil =>
      refine returns_pure ⟨familiar, c, hb, rfl, ?_⟩
      rw [List.append_nil]
      exact h
  | cons declaration rest ih =>
      have known (plan : BuildPlan) (rule : String) (build : declaration = .build plan rule)
          (own : rule ≠ DocumentId.phonyName) (undeclared : c.rules.lookup rule = none) :
          b.rules.lookup rule = none := by
        -- The first fault is that of this build, and `b` has no rule that is declared after it.
        have undeclared := (h.lookup_rule rule).mp undeclared
        have wrong : declaration.fault? done = some (.undeclaredRule rule) := by
          rw [build, Declaration.fault?, if_neg (by simp [own, undeclared])]
        by_contra found
        have declared := familiar.rules rule found
        rw [beforeFault, wrong] at declared
        cases undeclared.symm.trans declared
      rw [Builder.addAll, firstFault?]
      rw [beforeFault] at familiar ⊢
      cases hfault : declaration.fault? done with
      | some fault =>
          rw [hfault] at familiar
          refine returns_then (hb.returns_add known (h.returns_add_fault position hfault))
            fun r s' hr => ?_
          obtain ⟨b', outcome⟩ := r
          obtain ⟨lesson, rfl, heq⟩ := hr
          obtain ⟨same, rfl⟩ := Prod.mk.inj heq
          refine returns_pure ⟨familiar.learn (c := c) fun name found => ?_, _, hb.learn lesson, rfl⟩
          rw [same] at found
          exact h.declared found
      | none =>
          rw [hfault] at familiar
          refine returns_then (hb.returns_add known (h.returns_add_right position hfault))
            fun r s' hr => ?_
          obtain ⟨b', outcome⟩ := r
          obtain ⟨lesson, rfl, rfl, replayed⟩ := hr
          have familiar' : (b.learn lesson).Familiar m config
              (beforeFault (done ++ [declaration]) rest) :=
            familiar.learn (c := c) fun name found => any_beforeFault (replayed.declared found)
          rw [List.append_cons done declaration rest]
          exact ih replayed (hb.learn lesson) familiar' (position + 1)

end Replayed

namespace Builder

/-- A builder of a manifest that may have been called before, whatever has become since then
of the documents that it gave. -/
inductive Used (m : Manifest) (config : List (Value × Value)) : Builder → Prop where
  | new : Used m config (ofManifest m config)
  | again {b b' : Builder} {outcome : Except Fault DocumentId} {s s' : Store}
      (used : Used m config b) (unassigned : s.assigned = [])
      (called : b.build.alone s = (.ok (b', outcome), s')) : Used m config b'

theorem familiar_ofManifest (m : Manifest) (config : List (Value × Value)) :
    (ofManifest m config).Familiar m config known where
  manifest := rfl
  config := rfl
  ruleKeys := List.nodup_nil
  poolKeys := List.nodup_nil
  rules _ found := absurd rfl found

/-- A call of a builder that has been called before ends as the first call does. -/
theorem Familiar.returns_build (familiar : b.Familiar m config (beforeFault [] m.declarations))
    (typed : TypedConfig config) (fresh : s.Fresh) :
    Returns b.build s fun r s' => r.1.Familiar m config (beforeFault [] m.declarations) ∧
      match firstFault? [] 0 m.declarations with
      | none => ∃ d a, r.2 = .ok d ∧ Replayed m s d a m.declarations r.1 s'
      | some (fault, position) => r.2 = .error (.reference fault position) := by
  obtain rfl := familiar.manifest
  refine returns_begun (familiar.config ▸ typed_config typed b.manifest) fresh fun d a s₁ hb => ?_
  let console := (DocumentId.consoleName, PoolEntry.builtIn (s₁.document d).console)
  have start := replayed_nil hb (m := b.manifest)
    (b := { b with rules := [], pools := [console] }) rfl rfl rfl
  have covers : Covers { b with pools := [console] } { b with rules := [], pools := [console] } :=
    ⟨rfl, fun _ _ found => by cases found⟩
  have reset : Familiar b.manifest config (beforeFault [] b.manifest.declarations)
      { b with pools := [console] } :=
    { familiar with poolKeys := List.nodup_singleton _ }
  refine returns_mono (start.returns_addAll_covering covers reset 0) fun r s₂ hr => ?_
  obtain ⟨b', outcome⟩ := r
  obtain ⟨familiar', c, covers', hr⟩ := hr
  refine ⟨familiar', ?_⟩
  cases hfirst : firstFault? [] 0 b.manifest.declarations with
  | none =>
      rw [hfirst] at hr
      obtain ⟨rfl, replayed⟩ := hr
      refine ⟨d, a, rfl, replayed.covered covers' fun name found => ?_⟩
      have known := familiar'.rules name found
      rwa [beforeFault_of_right hfirst] at known
  | some first =>
      rw [hfirst] at hr
      obtain rfl : outcome = .error (.reference first.1 first.2) := hr
      rfl

theorem Used.familiar (typed : TypedConfig config) (used : Used m config b) :
    b.Familiar m config (beforeFault [] m.declarations) := by
  induction used with
  | new => exact familiar_ofManifest m config
  | again used unassigned called ih =>
      obtain ⟨r, s₁, heq, familiar, -⟩ :=
        ih.returns_build typed fun i _ => bare_of_assigned_nil unassigned i
      cases called.symm.trans heq
      exact familiar

end Builder

/-! ## What a call gives -/

namespace Builder

variable {b' : Builder} {given' : Store} {d' : DocumentId} {a' : Arena} {s' : Store}

end Builder

end Calls

end NinjaFile
