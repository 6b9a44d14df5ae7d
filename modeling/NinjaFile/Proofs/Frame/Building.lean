import NinjaFile.Manifest.Builder
import NinjaFile.Proofs.Frame.Inserting

/-!
# Building among others

A document that is built of a manifest is made by the same calls that callers make, with
handles that lead into it or into documents built before.
-/

namespace NinjaFile

open Store Program Manifest

namespace Housing

variable {α : Type} {d : DocumentId} {h : Handle} {J : Assertion}

theorem does_attempt {p : Action α} {Q : α → Assertion} (hp : Does J p Q) :
    Does J p.attempt fun r trail s => ∀ x, r = .ok x → Q x trail s := by
  intro g s good hJ
  rw [wp_attempt]
  refine wp_mono ?_ (hp g s good hJ)
  exact fun r g s ⟨good, hQ⟩ => ⟨good, fun _ hr => Except.ok.inj hr ▸ hQ⟩

theorem does_keep {P : Assertion} (lasting : Lasting P) {p : Action α} {Q : α → Assertion}
    (pre : ∀ trail s, P trail s → J trail s) (h : Does J p Q) : Does P p fun _ => P :=
  (does_along lasting pre h).post fun _ _ _ h => h.2

/-- The handle leads into some document. -/
abbrev Leading (h : Handle) : Assertion := fun _ s => Aims (.handle h) s

theorem lasting_leading (h : Handle) : Lasting (Leading h) := lasting_aims (.handle h)

theorem does_leading {p : Action Handle} {expected : Expected} (h : Does J p (Gives d expected)) :
    Does J p Leading :=
  h.post fun _ _ _ gives => ⟨d, gives.1⟩

/-- There is the document, and the rules that a builder knows are somewhere. -/
def Knowing (b : Builder) (d : DocumentId) : Assertion := fun _ s =>
  s.HasDocument d ∧ ∀ e ∈ b.rules, Aims (.handle e.2) s

theorem lasting_knowing (b : Builder) (d : DocumentId) : Lasting (Knowing b d) where
  later _ _ _ h later :=
    ⟨(later.documents d h.1).1, fun e he => (lasting_leading e.2).later [] _ _ (h.2 e he) later⟩
  note _ _ _ h := h

theorem does_attachBindings (h : Handle) (bindings : List Binding) :
    Does (Leading h) (Builder.attachBindings h bindings) fun _ => Leading h :=
  does_keep (lasting_leading h) (fun _ _ h => h) (does_attach (.handle h) _)

theorem does_attachDyndep (h : Handle) (file : Option String) :
    Does (Leading h) (Builder.attachDyndep h file) fun _ => Leading h := by
  cases file with
  | none => exact does_pure fun _ _ _ h => h
  | some file => exact does_keep (lasting_leading h) (fun _ _ h => h) (does_attach (.handle h) _)

theorem does_configure (b : Builder) (plan : BuildPlan) (expected : h.expected = .build) :
    Does (Leading h) (b.configure h plan) fun _ _ _ => True := by
  have paths (slot : Slot) (v : Value) :
      Does (Leading h) ((Receiver.handle h).addPaths slot v) fun _ => Leading h := by
    refine does_keep (lasting_leading h) (fun _ _ h => h) (does_addPaths (.handle h) ?_ v)
    simp [Receiver.takesPaths, expected]
  refine does_bind (paths .inputs _) fun _ => does_bind (paths .implicitInputs _) fun _ => ?_
  refine does_bind (paths .orderOnlyInputs _) fun _ => does_bind (paths .validations _) fun _ => ?_
  refine does_bind (paths .implicitOutputs _) fun _ => ?_
  exact does_bind (does_attachDyndep h _) fun _ => does_attach (.handle h) _

theorem does_insertBuild (b : Builder) (plan : BuildPlan) {p : Action Handle}
    (hp : Does J p (Gives d .build)) : Does J (p >>= fun h => b.configure h plan) fun _ _ _ => True := by
  refine does_bind hp fun h => ?_
  have configured : Does (fun trail s => Leading h trail s ∧ h.expected = .build)
      (b.configure h plan) fun _ _ _ => True :=
    does_pull fun expected => does_configure b plan expected
  exact configured.pre fun _ _ h => ⟨⟨d, h.1⟩, h.2⟩

theorem does_insertBy (b : Builder) (plan : BuildPlan) (rule : Handle) :
    Does (Leading rule) (rule.build (b.outputs plan.paths.outputs) >>= fun h => b.configure h plan)
      fun _ => Leading rule :=
  does_keep (lasting_leading rule) (fun _ _ h => h) <| does_exists fun d =>
    does_insertBuild b plan (does_handleBuild rule d _)

theorem does_addBuilds (b : Builder) (rule : Handle) (plans : List BuildPlan) :
    Does (Leading rule) (b.addBuilds rule plans) fun _ _ _ => True := by
  induction plans with
  | nil => exact does_pure fun _ _ _ _ => trivial
  | cons plan rest ih =>
      have first := does_bind (does_insertBy b plan rule) fun _ => ih
      rw [LawfulMonad.bind_assoc] at first
      exact first

theorem does_joinPool (b : Builder) (h : Handle) (position : Nat) (name : String)
    (pool : Option String) : Does (Leading h) (b.joinPool h position name pool) fun _ => Leading h := by
  cases pool with
  | none => exact does_pure fun _ _ _ h => h
  | some poolName =>
      rw [Builder.joinPool]
      split
      · exact does_fail _
      · exact does_keep (lasting_leading h) (fun _ _ h => h) (does_usePool (.handle h) _)

theorem does_addRule (b : Builder) (d : DocumentId) (position : Nat) (name command : String)
    (pool : Option String) (bindings : List Binding) :
    Does (fun _ s => s.HasDocument d) (b.addRule d position name command pool bindings) Leading := by
  refine does_bind (does_leading (does_rule d _ _)) fun h => ?_
  refine does_bind (does_joinPool b h position name pool) fun _ => ?_
  exact does_bind (does_attachBindings h bindings) fun _ => does_pure fun _ _ _ h => h

theorem does_addBuild (b : Builder) (d : DocumentId) (position : Nat) (plan : BuildPlan)
    (rule : String) :
    Does (Knowing b d) (b.addBuild d position plan rule) fun _ _ _ => True := by
  rw [Builder.addBuild]
  split
  · exact (does_insertBuild b plan (does_phony d _)).pre fun _ _ h => h.1
  · split
    · exact does_fail _
    · next r found =>
        refine ((does_insertBy b plan r).pre fun _ _ h => ?_).post fun _ _ _ _ => trivial
        obtain ⟨before, after, heq, -⟩ := List.lookup_eq_some_iff.mp found
        exact h.2 (rule, r) (by simp [heq])

theorem does_addPool (d : DocumentId) (name : String) (depth : Nat) (bindings : List Binding) :
    Does (fun _ s => s.HasDocument d) (Builder.addPool d name depth bindings) fun _ _ _ => True := by
  refine does_bind (does_leading (does_pool d _ _)) fun h => ?_
  exact does_bind (does_attachBindings h bindings) fun _ => does_pure fun _ _ _ _ => trivial

/-! ## Declarations -/

theorem mem_setKey {κ α : Type} [DecidableEq κ] {key : κ} {a : α} {entries : List (κ × α)}
    {e : κ × α} (he : e ∈ setKey key a entries) : e = (key, a) ∨ e ∈ entries := by
  induction entries with
  | nil => exact .inl (List.mem_singleton.mp he)
  | cons head rest ih =>
      obtain ⟨k, b⟩ := head
      rw [setKey] at he
      split at he
      · exact (List.mem_cons.mp he).imp_right (List.mem_cons_of_mem _)
      · rcases List.mem_cons.mp he with rfl | he
        · exact .inr List.mem_cons_self
        · exact (ih he).imp_right (List.mem_cons_of_mem _)

/-- After each declaration the builder knows rules that are there. -/
theorem does_add (b : Builder) (d : DocumentId) (position : Nat) (declaration : Declaration) :
    Does (Knowing b d) (b.add d position declaration) fun r => Knowing r.1 d := by
  have lasting := lasting_knowing b d
  have same {p : Action Unit} {J : Assertion} {Q : Unit → Assertion}
      (pre : ∀ trail s, Knowing b d trail s → J trail s) (hp : Does J p Q) :
      Does (Knowing b d) (p.attempt >>= fun outcome => Pure.pure (b, outcome)) fun r => Knowing r.1 d :=
    does_bind (does_keep lasting pre (does_attempt hp)) fun _ => does_pure fun _ _ _ h => h
  have known (trail : List (Store × Store)) (s : Store) (h : Knowing b d trail s) : s.HasDocument d := h.1
  cases declaration with
  | rule name command pool bindings builds =>
      have made := does_attempt (does_addRule b d position name command pool bindings)
      refine does_bind (does_along lasting known made) fun r => ?_
      cases r with
      | error fault => exact does_pure fun _ _ _ h => h.2
      | ok h =>
          -- The rule is among those that the builder knows from now on.
          have more := (lasting_leading h).and (lasting_knowing (b.setRule name h) d)
          have rest := does_attempt (does_addBuilds (b.setRule name h) h builds)
          refine Does.pre (does_bind (does_keep more (fun _ _ h => h.1) rest) fun _ =>
            does_pure fun _ _ _ h => h.2) fun trail s found => ?_
          refine ⟨found.1 h rfl, found.2.1, fun e he => ?_⟩
          rcases mem_setKey he with rfl | he
          · exact found.1 h rfl
          · exact found.2.2 e he
  | build plan rule => exact same (fun _ _ h => h) (does_addBuild b d position plan rule)
  | phony plan => exact same known (does_insertBuild b plan (does_phony d _))
  | pool name depth bindings =>
      refine does_bind (does_keep lasting known (does_attempt (does_addPool d name depth bindings)))
        fun r => ?_
      cases r <;> exact does_pure fun _ _ _ h => h
  | binding v => exact same known (does_binding d _ _)
  | comment text => exact same known (does_comment d _)
  | defaults outputs => exact same known (does_defaults d _)
  | subninja path => exact same known (does_subninja d _)
  | inclusion path => exact same known (does_inclusion d _)
  | foreign typeName => exact does_pure fun _ _ _ h => h

theorem does_addAll (b : Builder) (d : DocumentId) (position : Nat)
    (declarations : List Declaration) :
    Does (Knowing b d) (b.addAll d position declarations) fun _ _ _ => True := by
  induction declarations generalizing b position with
  | nil => exact does_pure fun _ _ _ _ => trivial
  | cons declaration rest ih =>
      refine does_bind (does_add b d position declaration) fun r => ?_
      obtain ⟨b', fault | u⟩ := r
      · exact does_pure fun _ _ _ _ => trivial
      · exact ih b' (position + 1)

theorem does_build (b : Builder) (typed : TypedConfig b.config) :
    Does (fun _ s => ∀ e ∈ b.rules, Aims (.handle e.2) s) b.build fun _ _ _ => True := by
  have lasting : Lasting fun _ s => ∀ e ∈ b.rules, Aims (.handle e.2) s :=
    ⟨fun _ _ _ h later e he => (lasting_leading e.2).later [] _ _ (h e he) later, fun _ _ _ h => h⟩
  refine does_bind (does_attempt (does_making lasting (does_documentMake typed))) fun r => ?_
  cases r with
  | error fault => exact does_pure fun _ _ _ _ => trivial
  | ok d =>
      have knowing := (lasting_knowing b d).firm
      refine Does.pre (J := Knowing b d) ?_ fun _ _ h => h d rfl
      refine does_bind (does_every knowing (every_aside (aside_read _))) fun record => ?_
      exact does_bind ((does_addAll _ d 0 _).pre fun _ _ h => ⟨h.1, h.2⟩) fun _ =>
        does_pure fun _ _ _ h => h

end Housing

end NinjaFile
