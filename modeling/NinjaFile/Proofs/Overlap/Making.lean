import NinjaFile.Proofs.Frame.Making
import NinjaFile.Proofs.Overlap.Terms
import NinjaFile.Proofs.Store.Printing

/-!
# Making things while others render

Nothing that is made is in a document yet, so it is no harm to make it.  Who makes a statement
knows of it that it has made it.
-/

namespace NinjaFile.Overlap

open Store Program
open Sharing (MadeNode madeNode_append)

variable {α : Type} {kept : Node → Prop} {c : Setting} {J : Housing.Assertion}

/-! ## Harmless programs -/

theorem every_clerical {p : Action α} (h : p.Every Clerical) : p.Every (Harmless kept) :=
  h.mono fun _ clerical s => .clerical clerical s

theorem every_aside {p : Action α} (h : p.Every Aside) : p.Every (Harmless kept) :=
  every_clerical (h.mono fun _ => Aside.clerical)

theorem every_listMake (ownership : Ownership) (blocking : Bool) :
    (ListId.make ownership blocking []).Every (Harmless kept) :=
  every_update fun s => .insertList s ownership blocking fun _ hv => nomatch hv

theorem every_add (l : ListId) {v : Value} (plain : v.node? = none) :
    (l.add v).Every (Harmless kept) :=
  every_guarded _ _ <| every_update fun s => .append s l fun _ hw =>
    .inl (List.mem_singleton.mp hw ▸ plain)

theorem every_extend (l : ListId) {items : List Value} (plain : ∀ v ∈ items, v.node? = none) :
    (l.extend items).Every (Harmless kept) :=
  every_guarded _ _ <| every_modify fun s => .append s l fun v hv => .inl (plain v hv)

theorem plain_texts (texts : List String) : ∀ v ∈ texts.map Value.text, v.node? = none := by
  intro v hv
  obtain ⟨text, -, rfl⟩ := List.mem_map.mp hv
  rfl

theorem does_makeObject (lasting : Lasting c J) (f : Serial → Object) :
    Does c J (makeObject f) fun v trail s => J trail s ∧ ∃ n, v = .object (f n) := by
  refine does_update fun trail s hJ _ _ _ => ?_
  have fair : Fair c.kept s { s with serial := s.serial + 1 } :=
    .clerical (clerical_serial fun _ => Nat.le_succ _) s
  exact ⟨fair, lasting.step hJ fair.gentle, _, rfl⟩

theorem does_makeBinding (lasting : Lasting c J) (name value : Value) :
    Does c J (makeBinding name value) fun v trail s => J trail s ∧ ∃ n b, v = .object (.binding n b) ∧
      Attachment.toBindings [(name, value)] = .ok [b] := by
  refine does_bind (R := fun text trail s => J trail s ∧ name.toArgument = .ok text)
    (does_ofExcept fun _ text _ _ h => ⟨h, text⟩) fun text => does_pull fun named => ?_
  refine does_bind (R := fun text trail s => J trail s ∧ value.toArgument = .ok text)
    (does_ofExcept fun _ text _ _ h => ⟨h, text⟩) fun content => does_pull fun valued => ?_
  refine (does_makeObject lasting fun n => .binding n ⟨text, content⟩).post ?_
  rintro _ _ _ ⟨h, n, rfl⟩
  refine ⟨h, n, _, rfl, ?_⟩
  simp only [Attachment.toBindings, named, valued]
  rfl

/-! ## Statements -/

/-- The thread has made the statement, as far as is known. -/
def Setting.Made (c : Setting) (n : Node) : Prop := ∃ trail, c.given trail ∧ MadeNode trail n

/-- The program makes a statement. -/
def Makes (c : Setting) (p : Action α) (n : α → Node) : Prop :=
  Does c (fun _ _ => True) p fun x _ s => s.HasNode (n x) ∧ c.Made (n x)

theorem makes_update {f : Store → α × Store} {n : α → Node}
    (fair : ∀ s, Fair c.kept s (f s).2) (new : ∀ s : Store, ¬ s.HasNode (n (f s).1))
    (has : ∀ s, (f s).2.HasNode (n (f s).1)) : Makes c (.update f) n :=
  does_update fun _ s _ _ _ given =>
    ⟨fair s, has s, _, given, madeNode_append.mpr (.inr ⟨new s, has s⟩)⟩

theorem makes_bind {β : Type} {p : Action β} {k : β → Action α} {n : α → Node}
    (hp : p.Every (Harmless c.kept)) (hk : ∀ x, Makes c (k x) n) : Makes c (p >>= k) n :=
  does_bind (does_every lasting_true hp) hk

private theorem makes_first {n : α → Node} (ownership : Ownership) (name value : Value)
    {k : ListId → Action α} (hk : ∀ l, Makes c (k l) n) :
    Makes c (do
      let bindings ← ListId.make ownership false []
      let binding ← makeBinding name value
      let _ ← bindings.add binding
      k bindings) n := by
  refine makes_bind (every_listMake ownership false) fun l => ?_
  refine does_bind (does_makeBinding lasting_true name value) fun binding => does_pull ?_
  rintro ⟨serial, b, rfl, -⟩
  exact makes_bind (every_add l rfl) fun _ => hk l

theorem makes_rule (name command ownership : Value) :
    Makes c (RuleId.make name command ownership) .rule := by
  refine makes_bind (every_ofExcept _) fun name => makes_bind (every_ofExcept _) fun ownership => ?_
  refine makes_first ownership _ command fun l => makes_update (fun s => ?_) (fun s => ?_) fun s => ?_
  · exact .of_adds_only (adds_insertRule s _) rfl
  · exact Nat.lt_irrefl _
  · simp [insertRule, HasNode]

theorem makes_pool (name depth ownership builtIn : Value) :
    Makes c (PoolId.make name depth ownership builtIn) .pool := by
  refine makes_bind (every_ofExcept _) fun name => makes_bind (every_ofExcept _) fun ownership => ?_
  refine makes_first ownership _ depth fun l => makes_update (fun s => ?_) (fun s => ?_) fun s => ?_
  · exact (Fair.of_adds_only (adds_insertPool s _) rfl).assignAll _ _
  · exact Nat.lt_irrefl _
  · dsimp only
    rw [assignAll_eq]
    simp [insertPool, HasNode]

theorem every_makeSlots (ownership : Ownership) : (makeSlots ownership).Every (Harmless kept) := by
  refine every_bind (every_listMake ownership false) fun outputs => ?_
  refine every_bind (every_listMake ownership false) fun implicitOutputs => ?_
  refine every_bind (every_listMake ownership false) fun inputs => ?_
  refine every_bind (every_listMake ownership false) fun implicitInputs => ?_
  refine every_bind (every_listMake ownership false) fun orderOnlyInputs => ?_
  exact every_bind (every_listMake ownership false) fun validations => trivial

theorem makes_build (rule outputs ownership : Value) :
    Makes c (BuildId.make rule outputs ownership) .build := by
  refine makes_bind (every_aside (aside_member rule _)) fun ruleName => ?_
  refine makes_bind (every_ofExcept _) fun ownership => makes_bind (every_makeSlots ownership) fun paths => ?_
  refine makes_bind (every_listMake ownership false) fun bindings => ?_
  refine makes_bind (every_aside (aside_arguments outputs)) fun texts => ?_
  refine makes_bind (every_extend _ (plain_texts texts)) fun _ => ?_
  refine makes_update (fun s => ?_) (fun s => ?_) fun s => ?_
  · exact (Fair.of_adds_only (adds_insertBuild s _) rfl).assignAll _ _
  · exact Nat.lt_irrefl _
  · dsimp only
    rw [assignAll_eq]
    simp [insertBuild, HasNode]

/-! ## Documents -/

theorem does_documentMake {config : List (Value × Value)} (typed : TypedConfig config) :
    Does c (fun _ _ => True) (DocumentId.make (.mapping config)) fun _ _ _ => True := by
  have settings : Settings.ofValue (.mapping config) DocumentId.defaultSettings =
      Pure.pure (TypedConfig.settings config) := by
    cases config <;> rfl
  obtain ⟨threadSafe, htruth⟩ := typed.threadSafe_eq
  rw [DocumentId.make, settings]
  change Does c _ ((Settings.value (TypedConfig.settings config) "thread_safe").truth >>= _) _
  rw [htruth]
  change Does c _ (View.ofSettings _ >>= _) _
  refine does_bind (does_every lasting_true (every_clerical (Housing.clerical_ofSettings typed)))
    fun view => ?_
  refine does_bind (does_every lasting_true ?_) fun arena => ?_
  · exact every_bind (every_listMake _ true) fun _ => trivial
  refine does_bind ((makes_rule _ _ _).post fun _ _ _ _ => trivial) fun phony => ?_
  refine does_bind ((makes_pool _ _ _ _).post fun _ _ _ _ => trivial) fun console => ?_
  refine does_bind (does_every lasting_true (every_aside (quiet_logBy (some view) _ _).aside)) fun _ => ?_
  exact does_every lasting_true (every_update fun s => .insertDocument s _)

end NinjaFile.Overlap
