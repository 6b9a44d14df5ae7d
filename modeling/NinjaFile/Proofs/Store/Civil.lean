import NinjaFile.Proofs.Program.Alone
import NinjaFile.Proofs.Store.Tame

/-!
# Actions that may make documents

What a tame action never does, one that makes documents does not do either: it is in one
guard at a time, runs nobody's steps in there, and fails for want of a guard only where one
is refused.
-/

namespace NinjaFile

open Action Store

/-- The states that one step leads to, if it may also add a document. -/
inductive Store.Deed (w : Bool) (s : Store) : Store → Prop where
  | effect {s' : Store} (h : Effect w s s') : Deed w s s'
  | document (r : DocumentRecord) : Deed w s (s.insertDocument r).2

theorem Store.files_assignAll (s : Store) (i : Identity) (attributes : List (String × Value)) :
    (s.assignAll i attributes).files = s.files := by
  rw [assignAll_eq]

theorem Store.Effect.files_eq {s s' : Store} (h : Effect false s s') : s'.files = s.files := by
  cases h with
  | files writes files => cases writes
  | part node part list => cases node <;> cases part <;> rfl
  | list => rw [files_assignAll, files_assignAll]; rfl
  | arena | build | pool | guard => rw [files_assignAll]; rfl
  | serial attributes => exact files_assignAll s.nextSerial.2 (.serial s.serial) attributes
  | _ => rfl

theorem Store.Deed.files_eq {s s' : Store} (h : Deed false s s') : s'.files = s.files := by
  cases h with
  | effect h => exact h.files_eq
  | document r => rfl

/-- An action that may make documents; `w` is for those that may write to files. -/
structure Action.Civil {α : Type} (w : Bool) (p : Action α) : Prop where
  disciplined : p.Disciplined (fun f => ∀ s, Deed w s (f s))
    (fun f => ∀ s, (f s).sources = s.sources) none
  ends : p.Ends Granted

variable {α β : Type} {w : Bool}

theorem Action.Tame.civil {p : Action α} (h : Tame w p) : Civil w p where
  disciplined := h.disciplined.mono (fun _ effect s => .effect (effect s)) fun _ => id
  ends := h.ends

theorem Action.Civil.files_eq {p : Action α} (h : Civil false p) (s : Store) :
    (p.alone s).2.files = s.files := by
  refine alone_of_every (R := fun s s' => s'.files = s.files) (fun _ => rfl)
    (fun _ _ _ first second => second.trans first) (fun s lock g => ?_)
    (h.disciplined.every.mono fun _ deed s => (deed s).files_eq) s
  cases lock <;> rfl

theorem civil_bind {p : Action α} {k : α → Action β} (hp : Civil w p)
    (hk : ∀ a, Civil w (k a)) : Civil w (p >>= k) where
  disciplined := Program.disciplined_bind hp.disciplined fun a => (hk a).disciplined
  ends := hp.ends.bind (fun a _ => (hk a).ends) fun fault h => granted_error (h fault rfl)

theorem civil_attempt {p : Action α} (hp : Civil w p) : Civil w p.attempt :=
  ⟨Program.disciplined_attempt hp.disciplined, hp.ends.attempt fun _ _ => granted_ok _⟩

theorem civil_documentMake (config : Value) : Civil w (DocumentId.make config) := by
  refine civil_bind (tame_settings _ _).civil fun settings => ?_
  refine civil_bind (tame_truth _).civil fun threadSafe => ?_
  refine civil_bind (tame_viewOfSettings _).civil fun view => ?_
  refine civil_bind (tame_arenaMake _ _).civil fun arena => ?_
  refine civil_bind (tame_ruleMake _ _ _).civil fun phony => ?_
  refine civil_bind (tame_poolMake _ _ _ _).civil fun console => ?_
  refine civil_bind (tame_log _ _ _).civil fun _ => ?_
  exact ⟨Program.disciplined_update fun s => .document _, fun _ => granted_ok _⟩

/-! ## Building -/

/-- An outcome that comes with something else is not for want of a guard. -/
def Action.Brings (p : Action (β × Except Fault α)) : Prop :=
  p.Ends fun r => ∀ b outcome, r = .ok (b, outcome) → Granted outcome

theorem brings_pure (b : β) {outcome : Except Fault α} (h : Granted outcome) :
    Brings (Pure.pure (b, outcome)) := by
  rintro _ _ ⟨⟩
  exact h

theorem brings_bind {γ : Type} {p : Action γ} {k : γ → Action (β × Except Fault α)}
    {Q : Except Fault γ → Prop} (hp : p.Ends Q) (hk : ∀ c, Q (.ok c) → Brings (k c)) :
    Brings (p >>= k) :=
  hp.bind hk fun _ _ _ _ h => by cases h

theorem brings_attempt {γ : Type} {p : Action γ} {k : Except Fault γ → Action (β × Except Fault α)}
    (hp : p.Ends Granted) (hk : ∀ r, Granted r → Brings (k r)) : Brings (p.attempt >>= k) :=
  brings_bind (hp.attempt (R := fun r => ∀ outcome, r = .ok outcome → Granted outcome)
    fun r hr outcome h => by cases h; exact hr) fun r hr => hk r (hr r rfl)

namespace Builder

variable (b : Builder) (d : DocumentId)

theorem brings_add (position : Nat) (declaration : Manifest.Declaration) :
    Brings (b.add d position declaration) := by
  cases declaration with
  | rule name command pool bindings builds =>
      refine brings_attempt (tame_builderRule (w := true) _ _ _ _ _ _ _).ends fun r hr => ?_
      cases r with
      | error fault => exact brings_pure _ (granted_error (hr fault rfl))
      | ok h => exact brings_attempt (tame_addBuilds (w := true) _ _ _).ends fun r hr =>
          brings_pure _ hr
  | pool name depth bindings =>
      refine brings_attempt (tame_builderPool (w := true) _ _ _ _).ends fun r hr => ?_
      cases r with
      | error fault => exact brings_pure _ (granted_error (hr fault rfl))
      | ok h => exact brings_pure _ (granted_ok ())
  | build plan rule =>
      exact brings_attempt (tame_builderBuild (w := true) _ _ _ _ _).ends fun _ =>
        brings_pure _
  | phony plan =>
      refine brings_attempt (Tame.ends (w := true) ?_) fun _ => brings_pure _
      exact tame_bind (tame_phony _ _) fun h => tame_configure b h plan
  | binding => exact brings_attempt (tame_binding (w := true) _ _ _).ends fun _ => brings_pure _
  | comment => exact brings_attempt (tame_comment (w := true) _ _).ends fun _ => brings_pure _
  | defaults => exact brings_attempt (tame_defaults (w := true) _ _).ends fun _ => brings_pure _
  | subninja => exact brings_attempt (tame_subninja (w := true) _ _).ends fun _ => brings_pure _
  | inclusion => exact brings_attempt (tame_inclusion (w := true) _ _).ends fun _ => brings_pure _
  | foreign typeName => exact brings_pure _ (granted_error rfl)

theorem brings_addAll (position : Nat) (declarations : List Manifest.Declaration) :
    Brings (b.addAll d position declarations) := by
  induction declarations generalizing b position with
  | nil => exact brings_pure _ (granted_ok ())
  | cons declaration rest ih =>
      refine brings_bind (brings_add b d position declaration) fun r hr => ?_
      obtain ⟨after, outcome⟩ := r
      cases outcome with
      | error fault => exact brings_pure _ (hr after _ rfl)
      | ok done => exact ih after (position + 1)

theorem civil_build : Civil w b.build := by
  refine civil_bind (civil_attempt (civil_documentMake _)) fun r => ?_
  cases r with
  | error fault => exact (tame_pure _).civil
  | ok d =>
      refine civil_bind (tame_read _).civil fun _ => ?_
      exact civil_bind (tame_addAll _ _ _ _).civil fun _ => (tame_pure _).civil

theorem brings_build : Brings b.build := by
  refine brings_attempt (civil_documentMake (w := true) _).ends fun r hr => ?_
  cases r with
  | error fault => exact brings_pure _ hr
  | ok d =>
      refine brings_bind (tame_read (w := true) _).ends fun _ _ => ?_
      refine brings_bind (brings_addAll _ _ _ _) fun r hr => brings_pure _ ?_
      obtain ⟨after, outcome⟩ := r
      cases outcome with
      | error fault => exact granted_error (hr after _ rfl fault rfl)
      | ok done => exact granted_ok d

end Builder

end NinjaFile
