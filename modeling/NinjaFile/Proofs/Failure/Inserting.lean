import NinjaFile.Proofs.Failure.Appending
import NinjaFile.Proofs.Failure.Tracing
import NinjaFile.Proofs.Program.Releasing
import NinjaFile.Proofs.Script.Operations
import NinjaFile.Proofs.Store.Alike

/-!
# Insertions that fail

An insertion first turns what it is given into a statement, from things that nobody else
knows of, and only then appends it.  Path attachments take all their paths from their source
before they add the first one.  So what is given and cannot be used is found out before
anything has changed that was there before.
-/

namespace NinjaFile

open Program Store
open Sharing (MadeList)

section Mild

variable {α : Type}

theorem mild_aside {p : Action α} (h : p.Every Aside) : p.Every Mild :=
  Every.mono (fun _ hf s => by
    obtain ⟨logging, sources, heq⟩ := hf s
    rw [heq]
    exact .of_adds { Adds.refl s with }) h

theorem Program.Looks.mild {p : Action α} (h : p.Looks Store.Alike) : p.Every Mild :=
  mild_aside h.aside

end Mild

/-! ## Making statements -/

/-- A statement that has been made since some moment. -/
def Novel (s₀ : Store) (v : Value) : Prop :=
  ∃ o k, v = .object o ∧ o.kind? = some k ∧ ¬ s₀.Knows o.identity

section Making

variable {s₀ : Store}

/-- From any trail the program leaves no trace, and what it gives is new. -/
abbrev Makes (s₀ : Store) (p : Action α) (v : α → Value) : Prop :=
  Treads s₀ (fun _ => True) p fun a _ => Novel s₀ (v a)

theorem treads_ofExcept {α : Type} {J : List (Store × Store) → Prop} (enduring : Enduring J)
    (r : Except Fault α) : Treads s₀ J (Program.ofExcept r) fun _ => J :=
  treads_mild enduring (every_ofExcept r)

theorem makes_serial (f : Serial → Object) (kind : ∀ n, (f n).kind?.isSome)
    (identity : ∀ n, (f n).identity = .serial n) : Makes s₀ (makeObject f) id := by
  refine treads_update fun trail s since _ => ⟨.of_adds (adds_serial s (Nat.le_succ _)), ?_⟩
  obtain ⟨k, hk⟩ := Option.isSome_iff_exists.mp (kind s.serial)
  refine ⟨_, k, rfl, hk, fun known => ?_⟩
  rw [identity] at known
  exact Nat.lt_irrefl _ (since.known _ known)

theorem makes_binding (name value : Value) : Makes s₀ (makeBinding name value) id := by
  refine treads_bind (treads_ofExcept enduring_true _) fun name => ?_
  refine treads_bind (treads_ofExcept enduring_true _) fun value => ?_
  exact makes_serial (fun n => .binding n ⟨name, value⟩) (fun _ => rfl) fun _ => rfl

theorem makes_comment (text : Value) : Makes s₀ (makeComment text) id :=
  treads_bind (treads_ofExcept enduring_true _) fun _ =>
    makes_serial _ (fun _ => rfl) fun _ => rfl

theorem makes_defaults (outputs : Value) : Makes s₀ (makeDefaults outputs) id :=
  treads_bind (treads_mild enduring_true (mild_aside (aside_arguments _))) fun _ =>
    makes_serial _ (fun _ => rfl) fun _ => rfl

theorem makes_subninja (path : Value) : Makes s₀ (makeSubninja path) id :=
  treads_bind (treads_ofExcept enduring_true _) fun _ =>
    makes_serial _ (fun _ => rfl) fun _ => rfl

theorem makes_inclusion (path : Value) : Makes s₀ (makeInclusion path) id :=
  treads_bind (treads_ofExcept enduring_true _) fun _ =>
    makes_serial _ (fun _ => rfl) fun _ => rfl

private theorem treads_first (ownership : Ownership) (name value : Value) {α : Type}
    {k : ListId → Action α} {Q : α → List (Store × Store) → Prop}
    (hk : ∀ l, Treads s₀ (fun _ => True) (k l) Q) :
    Treads s₀ (fun _ => True) (do
      let bindings ← ListId.make ownership false []
      let binding ← makeBinding name value
      let _ ← bindings.add binding
      k bindings) Q := by
  refine treads_bind (treads_make enduring_true _ _ _) fun l => ?_
  have enduring := enduring_true.and (enduring_made l)
  have binding : (makeBinding name value).Every Mild :=
    every_bind (every_ofExcept _) fun _ => every_bind (every_ofExcept _) fun _ =>
      every_update fun s => .of_adds (adds_serial s (Nat.le_succ _))
  refine treads_bind (treads_mild enduring binding) fun binding => ?_
  exact treads_bind (treads_add enduring_true l binding) fun _ => hk l

theorem makes_rule (name command ownership : Value) :
    Makes s₀ (RuleId.make name command ownership) fun r => .object (.rule r) := by
  refine treads_bind (treads_ofExcept enduring_true _) fun name => ?_
  refine treads_bind (treads_ofExcept enduring_true _) fun ownership => ?_
  refine treads_first ownership _ command fun bindings => ?_
  refine treads_update fun trail s since _ => ⟨.of_adds (adds_insertRule s _), ?_⟩
  refine ⟨_, .rule, rfl, rfl, fun known => ?_⟩
  exact Nat.lt_irrefl _ (since.known (.rule ⟨s.rules.size⟩) known)

theorem makes_pool (name depth ownership builtIn : Value) :
    Makes s₀ (PoolId.make name depth ownership builtIn) fun p => .object (.pool p) := by
  refine treads_bind (treads_ofExcept enduring_true _) fun name => ?_
  refine treads_bind (treads_ofExcept enduring_true _) fun ownership => ?_
  refine treads_first ownership _ depth fun bindings => ?_
  refine treads_update fun trail s since _ => ?_
  have new : ¬ s.Knows (.pool ⟨s.pools.size⟩) := Nat.lt_irrefl _
  refine ⟨(Spares.of_adds (adds_insertPool s _)).assignAll new fun a ha => ?_,
    _, .pool, rfl, rfl, fun known => new (since.known _ known)⟩
  split at ha
  · cases ha
  · cases List.mem_singleton.mp ha
    exact (by decide : "built_in" ≠ "kind")

theorem makes_build (rule outputs ownership : Value) :
    Makes s₀ (BuildId.make rule outputs ownership) fun b => .object (.build b) := by
  refine treads_bind (treads_mild enduring_true
    (looks_member rule (by decide) (by decide)).mild) fun ruleName => ?_
  refine treads_bind (treads_ofExcept enduring_true _) fun ownership => ?_
  have list : (ListId.make ownership false []).Every Mild :=
    every_update fun s => .of_adds (adds_insertList s _)
  have slots : Treads s₀ (fun _ => True) (makeSlots ownership)
      fun paths trail => MadeList trail paths.outputs := by
    refine treads_bind (treads_make enduring_true _ _ _) fun outputs => ?_
    have enduring := enduring_true.and (enduring_made outputs)
    refine treads_bind (treads_mild enduring list) fun implicitOutputs => ?_
    refine treads_bind (treads_mild enduring list) fun inputs => ?_
    refine treads_bind (treads_mild enduring list) fun implicitInputs => ?_
    refine treads_bind (treads_mild enduring list) fun orderOnlyInputs => ?_
    refine treads_bind (treads_mild enduring list) fun validations => ?_
    exact treads_pure _ fun _ h => h.2
  refine treads_bind slots fun paths => ?_
  have enduring : Enduring fun trail => MadeList trail paths.outputs := enduring_made _
  refine treads_bind (treads_mild enduring list) fun bindings => ?_
  refine treads_bind (treads_mild enduring (mild_aside (aside_arguments outputs))) fun texts => ?_
  have extend : Treads s₀ (fun trail => True ∧ MadeList trail paths.outputs) _ fun _ _ => True :=
    treads_extend enduring_true paths.outputs (texts.map .text)
  refine treads_bind (Q := fun _ _ => True) ?_ fun _ => ?_
  · exact fun g s clean made => extend g s clean ⟨trivial, made⟩
  refine treads_update fun trail s since _ => ?_
  have new : ¬ s.Knows (.build ⟨s.builds.size⟩) := Nat.lt_irrefl _
  refine ⟨(Spares.of_adds (adds_insertBuild s _)).assignAll new fun a ha => ?_,
    _, .build, rfl, rfl, fun known => new (since.known _ known)⟩
  split at ha
  · cases ha
  · cases List.mem_singleton.mp ha
    exact (by decide : "rule_name" ≠ "kind")

end Making

/-! ## Appending what has been made -/

section Appending

variable {s₀ : Store} {v : Value} {α : Type}

theorem steadfast_append (l : ListId) (items : List Value) :
    Steadfast fun s => s.modifyList l (·.append items) := fun s =>
  have spares : Spares (fun j => l = j) s (s.modifyList l (·.append items)) := .append rfl items
  ⟨fun _ => spares.knows, fun i => spares.assigned i "kind" (.inr rfl)⟩

theorem steadfast_assignAll {f : Store → Store} (h : Steadfast f) (i : Store → Identity)
    {attributes : List (String × Value)} (kinds : ∀ a ∈ attributes, a.1 ≠ "kind") :
    Steadfast fun s => (f s).assignAll (i s) attributes := by
  intro s
  refine ⟨fun j hj => ?_, fun j => ?_⟩
  · have known := (h s).1 j hj
    change ((f s).assignAll (i s) attributes).Knows j
    rw [assignAll_eq]
    cases j <;> exact known
  · refine Eq.trans ?_ ((h s).2 j)
    rcases assigned?_assignAll (i s) j attributes "kind" (s := f s) with same | ⟨w, hw, -⟩
    · exact same
    · exact absurd rfl (kinds _ hw)

theorem steadfast_putPart (n : Node) (q : Part) (l : ListId) :
    Steadfast fun s => s.putPart n q (.object (.list l)) := by
  intro s
  have part : q.name ≠ "kind" := by
    cases q with
    | bindings => decide
    | paths slot => cases slot <;> decide
  have nodes (m : Node) (hm : s.HasNode m) : (s.setPart n q l).HasNode m :=
    (hasNode_setPart s n q l m).mpr hm
  refine ⟨fun i hi => ?_, fun i => ?_⟩
  · cases i with
    | list j | arena j => cases n <;> cases q <;> exact hi
    | document d => cases n <;> cases q <;> exact hi
    | rule r => exact nodes (.rule r) hi
    | build b => exact nodes (.build b) hi
    | pool p => exact nodes (.pool p) hi
    | serial k => cases n <;> cases q <;> exact hi
    | guard | source | ownership | kind => trivial
  · exact (assigned?_putPart ..).trans (if_neg fun key => part (Prod.mk.inj key).2.symm)

theorem orderly_storedMember (v : Value) (name : String) : Orderly (v.storedMember name) := by
  refine orderly_bind (orderly_read _) fun found => ?_
  split
  · exact orderly_pure _
  · exact orderly_fail rfl

theorem orderly_listMakeWith (ownership : Ownership) (blocking : Value) (items : List Value) :
    Orderly (ListId.makeWith ownership blocking items) := by
  have insert : Steadfast fun s => (s.insertList (.make ownership blocking.isTrue items)).2 :=
    fun s =>
      have spares : Spares (fun _ => False) s _ := .of_adds (adds_insertList s _)
      ⟨fun _ => spares.knows, fun i => spares.assigned i "kind" (.inr rfl)⟩
  have one {v : Value} : ∀ a ∈ [("blocking", v)], a.1 ≠ "kind" := fun a ha => by
    cases List.mem_singleton.mp ha
    exact (by decide : "blocking" ≠ "kind")
  refine orderly_update (steadfast_assignAll
    (steadfast_assignAll insert (fun s => .list ⟨s.lists.size⟩) ?_)
    (fun s => .guard (.list ⟨s.lists.size⟩)) ?_)
  all_goals
    split
    · exact List.forall_mem_nil _
    · exact one

theorem orderly_listAdopt (l : ListId) (ownership : Value) : Orderly (l.adopt ownership) := by
  refine orderly_bind (orderly_read _) fun own => ?_
  split
  · exact orderly_pure _
  · refine orderly_bind (orderly_guarded _ _ (orderly_read _)) fun items => ?_
    refine orderly_bind (orderly_read _) fun blocking => ?_
    refine orderly_bind (orderly_ofExcept fun fault h => ?_) fun o => ?_
    · cases ownership <;> cases h <;> rfl
    · exact orderly_listMakeWith _ _ _

theorem orderly_adopt (n : Node) (ownership : Value) : Orderly (n.adopt ownership) := by
  have part (q : Part) : Orderly (n.adoptPart ownership q) := by
    rw [adoptPart_eq]
    refine orderly_bind (orderly_read _) fun v => ?_
    split
    · exact orderly_bind (orderly_listAdopt _ _) fun l => orderly_modify (steadfast_putPart n q l)
    · exact orderly_fail rfl
  rw [Node.adopt]
  induction n.parts with
  | nil => exact orderly_pure ()
  | cons q rest ih => exact orderly_bind (part q) fun _ => ih

theorem orderly_add (l : ListId) (item : Value) : Orderly (l.add item) :=
  orderly_guarded _ _ (orderly_update (steadfast_append l [item]))

theorem orderly_truth (v : Value) : Orderly v.truth := by
  have length (l : ListId) : Orderly l.length := orderly_guarded _ _ (orderly_read _)
  rw [Value.truth.eq_def]
  split
  · exact orderly_bind (length _) fun _ => orderly_pure _
  · exact orderly_bind (length _) fun _ => orderly_pure _
  · exact orderly_pure _

theorem rejects_atLeast {a b : Value} {fault : Fault} (h : a.atLeast b = .error fault) :
    fault.rejects = false := by
  rw [Value.atLeast.eq_def] at h
  split at h
  · cases h
  · cases h
  · split at h <;> cases h
    rfl

theorem orderly_logBy (view : Option View) (level : Int) (text : String) :
    Orderly (logBy view level text) := by
  have write (f : Store → Logging) : Orderly (.modify fun s => { s with logging := f s }) :=
    orderly_modify fun s => ⟨fun i hi => by cases i <;> exact hi, fun _ => rfl⟩
  have lets (view : View) (level : Value) : Orderly (view.loggerLets level) := by
    refine orderly_bind (orderly_read _) fun found => ?_
    split
    · exact orderly_fail rfl
    · refine orderly_bind (orderly_ofExcept fun _ => rejects_atLeast) fun off => ?_
      split
      · exact orderly_pure _
      · exact orderly_bind (orderly_read _) fun _ => orderly_ofExcept fun _ => rejects_atLeast
  have admits (view : View) (level : Value) : Orderly (view.admits level) := by
    refine orderly_bind (orderly_read _) fun switch => orderly_bind (orderly_truth _) fun on => ?_
    split
    · refine orderly_bind (orderly_read _) fun limit => ?_
      refine orderly_bind (orderly_ofExcept fun _ => rejects_atLeast) fun beyond => ?_
      split
      · exact lets view level
      · exact orderly_pure _
    · exact orderly_pure _
  cases view with
  | none => exact orderly_pure _
  | some view =>
      refine orderly_bind (orderly_read _) fun plain => ?_
      split
      · exact write _
      · refine orderly_bind (admits view _) fun admitted => ?_
        split
        · split
          · exact write _
          · exact orderly_fail rfl
        · exact orderly_pure _

/-- What has been made since is of the kind that it was made with. -/
theorem settles_kindWord (novel : Novel s₀ v) : Settles s₀ v.kindWord := by
  obtain ⟨o, k, rfl, kind, new⟩ := novel
  intro g s
  rw [Value.kindWord, wp_bind, Sharing.kindOf_eq, Value.storedMember, wp_read_bind]
  intro s' _ since
  have stored : (Value.object o).stored? s' "kind" = some (.kind k) := by
    have field : o.field? s' "kind" = some (.kind k) := by
      cases o <;> cases kind <;> rfl
    rw [Value.stored?_object, since.kinds _ new, field]
    rfl
  refine ⟨trivial, since, ?_⟩
  rw [stored]
  exact fun _ h => by cases h

theorem settles_append (novel : Novel s₀ v) (place : Value) : Settles s₀ (place.append v) := by
  have logger (a : Arena) (w : Value) : Orderly (Program.ofExcept (w.logger? "debug")) := by
    refine orderly_ofExcept fun fault h => ?_
    rw [Value.logger?.eq_def] at h
    split at h <;> cases h
    rfl
  have arena (a : Arena) : Settles s₀ (a.append v) := by
    refine settles_bind ?_ fun _ => settles_bind (orderly_add _ _).settles fun index => ?_
    · rw [Arena.adopt]
      split
      · exact (orderly_bind (orderly_storedMember _ _) fun _ => orderly_adopt _ _).settles
      · exact (orderly_pure _).settles
    · refine settles_bind ?_ fun _ => (orderly_pure _).settles
      refine settles_bind (orderly_storedMember _ _).settles fun w => ?_
      refine settles_bind (logger a w).settles fun view => ?_
      exact settles_bind (settles_kindWord novel) fun _ => (orderly_logBy _ _ _).settles
  rw [Value.append.eq_def]
  split
  · exact arena _
  · exact (orderly_fail rfl).settles

theorem settles_insert (novel : Novel s₀ v) (place : Value) (expected : Expected) :
    Settles s₀ (place.insert expected v) := by
  have kinds {attributes : List (String × Value)} (h : ∀ a ∈ attributes, a.1 = "statements") :
      Steadfast fun s => (s.insertSerial attributes).2 := by
    refine steadfast_assignAll (f := fun s => s.nextSerial.2) (fun s => ⟨fun i hi => ?_, fun _ => rfl⟩)
      (fun s => .serial s.serial) fun a ha heq => ?_
    · cases i <;> first | exact hi | exact Nat.lt_succ_of_lt hi
    · rw [h a ha] at heq
      exact absurd heq (by decide)
  refine settles_bind (settles_append novel place) fun index => Orderly.settles ?_
  refine orderly_update (kinds fun a ha => ?_)
  rw [List.append_nil] at ha
  split at ha
  · cases ha
  · exact congrArg Prod.fst (List.mem_singleton.mp ha)

/-- What is done with a new statement cannot be rejected. -/
theorem careful_of_makes {β : Type} {p : Action α} {w : α → Value} {k : α → Action β}
    (makes : Makes s₀ p w) (hk : ∀ a, Novel s₀ (w a) → Settles s₀ (k a)) :
    Careful s₀ (fun _ => True) (p >>= k) :=
  careful_bind makes fun a g s clean novel => (hk a novel).careful (J := fun _ => True) g s clean trivial

end Appending

/-! ## Calls that add something -/

namespace Script

/-- A call that makes a statement and appends it, or that adds items to a list. -/
inductive Addition where
  | insert (i : Insertion)
  | comment (d : DocumentId) (text : Value)
  | binding (d : DocumentId) (name value : Value)
  | defaults (d : DocumentId) (outputs : Value)
  | subninja (d : DocumentId) (path : Value)
  | inclusion (d : DocumentId) (path : Value)
  /-- Paths for a build, directly or through a handle. -/
  | paths (o : Object) (r : Receiver) (slot : Slot) (v : Value)
  | items (l : ListId) (v : Value)

/-- The insertion makes what it appends. -/
def Insertion.creates : Insertion → Bool
  | .addRule .. | .addBuild .. | .addPool .. => false
  | _ => true

namespace Addition

def program : Addition → Action Value
  | .insert i => handleOf i.program
  | .comment d text => chained (.document d) (d.comment text)
  | .binding d name value => chained (.document d) (d.binding name value)
  | .defaults d outputs => chained (.document d) (d.defaults outputs)
  | .subninja d path => chained (.document d) (d.subninja path)
  | .inclusion d path => chained (.document d) (d.inclusion path)
  | .paths o r slot v => chained o (r.addPaths slot v)
  | .items l v => do
      l.extend (← v.iterate)
      return .null

def owner : Addition → Object
  | .insert i => i.owner
  | .comment d _ | .binding d .. | .defaults d _ | .subninja d _ | .inclusion d _ => .document d
  | .paths o .. => o
  | .items l _ => .list l

def methodName : Addition → String
  | .insert i => i.methodName
  | .comment .. => "comment"
  | .binding .. => "variable"
  | .defaults .. => "defaults"
  | .subninja .. => "subninja"
  | .inclusion .. => "include"
  | .paths _ _ slot _ =>
      match slot with
      | .inputs => "with_"
      | .implicitInputs => "with_implicit"
      | .orderOnlyInputs => "with_order_only"
      | .validations => "with_validations"
      | .implicitOutputs | .outputs => "output_implicit"
  | .items .. => "extend"

def arguments : Addition → List Value
  | .insert i => i.arguments
  | .binding _ name value => [name, value]
  | .comment _ v | .defaults _ v | .subninja _ v | .inclusion _ v | .paths _ _ _ v | .items _ v =>
      [v]

/-- Insertions make what they append, and paths are for builds, whose outputs are given when
they are made. -/
def fits : Addition → Bool
  | .insert i => i.fits && i.creates
  | .paths o r slot _ =>
      o.receiver? = some r && mixin? o = some .buildVariables && slot ≠ .outputs
  | _ => true

theorem exists_method (c : Addition) (fits : c.fits) :
    ∃ m ∈ methodsOf (.object c.owner), m.name = c.methodName ∧ m.run c.arguments = c.program := by
  have forDocument (d : DocumentId) (n : Nat) {m : Callable}
      (h : (insertionMethods d)[n]? = some m) : m ∈ methodsOf (.object (.document d)) :=
    List.mem_append_left _ (List.mem_append_right _ (List.mem_of_getElem? h))
  cases c with
  | insert i => exact i.exists_method (by simp_all [Addition.fits])
  | comment d text => exact ⟨_, forDocument d 0 rfl, rfl, rfl⟩
  | binding d name value => exact ⟨_, forDocument d 1 rfl, rfl, rfl⟩
  | defaults d outputs => exact ⟨_, forDocument d 2 rfl, rfl, rfl⟩
  | subninja d path => exact ⟨_, forDocument d 3 rfl, rfl, rfl⟩
  | inclusion d path => exact ⟨_, forDocument d 4 rfl, rfl, rfl⟩
  | items l items => exact ⟨_, List.mem_append_left _ (.tail _ (.head _)), rfl, rfl⟩
  | paths o r slot paths =>
      obtain ⟨⟨receiver, mixin⟩, slotted⟩ : (o.receiver? = some r ∧
          mixin? o = some .buildVariables) ∧ slot ≠ .outputs := by
        simpa [Addition.fits] using fits
      have forBuild (n : Nat) {m : Callable} (h : (buildVariablesMethods o r)[n]? = some m) :
          m ∈ methodsOf (.object o) := by
        refine List.mem_append_right _ ?_
        have mem := List.mem_of_getElem? h
        simp [attachmentMethods, receiver, mixin, mem]
      cases slot with
      | outputs => exact absurd rfl slotted
      | inputs => exact ⟨_, forBuild 0 rfl, rfl, rfl⟩
      | implicitInputs => exact ⟨_, forBuild 1 rfl, rfl, rfl⟩
      | orderOnlyInputs => exact ⟨_, forBuild 2 rfl, rfl, rfl⟩
      | validations => exact ⟨_, forBuild 3 rfl, rfl, rfl⟩
      | implicitOutputs => exact ⟨_, forBuild 4 rfl, rfl, rfl⟩

/-! ## Additions are careful -/

variable {s₀ : Store} {v : Value}

private theorem settles_statements (d : DocumentId) : Settles s₀ d.statements :=
  (orderly_storedMember _ _).settles

private theorem settles_documentInsert (novel : Novel s₀ v) (d : DocumentId) (expected : Expected) :
    Settles s₀ (d.insert expected v) :=
  settles_bind (settles_statements d) fun place => settles_insert novel place expected

private theorem settles_documentAdd (novel : Novel s₀ v) (d : DocumentId) : Settles s₀ (d.add v) :=
  settles_bind (settles_statements d) fun place =>
    settles_bind (settles_append novel place) fun _ => (orderly_pure _).settles

private theorem settles_handleInsert (novel : Novel s₀ v) (h : Handle) (expected : Expected) :
    Settles s₀ (do (← h.statements).insert expected v) :=
  settles_bind (orderly_read _).settles fun place => settles_insert novel place expected

private theorem mild_ownership (h : Handle) :
    (do (← h.statements).member "ownership" : Action Value).Every Mild :=
  every_bind (mild_aside (aside_read _)) fun place => (looks_member place (by decide) (by decide)).mild

/-- The name of the pool is known and turned into a text before the rule gets its binding. -/
private theorem careful_usePool (r : RuleId) (pool : Value) :
    Careful s₀ (fun _ => True) (Receiver.usePool (.node (.rule r)) pool) := by
  have add (item : Value) (novel : Novel s₀ item) (w : Value) : Settles s₀ (w.add item) := by
    rw [Value.add.eq_def]
    split
    · exact (orderly_bind (orderly_add _ _) fun _ => orderly_pure _).settles
    · refine settles_bind (orderly_read _).settles fun place => ?_
      exact settles_bind (settles_append novel place) fun _ => (orderly_pure _).settles
    · exact (orderly_fail rfl).settles
  refine careful_bind (treads_mild enduring_true
    (looks_member pool (by decide) (by decide)).mild) fun name => ?_
  have bind : Careful s₀ (fun _ => True) (Receiver.bind (.node (.rule r)) (.text "pool") name) := by
    refine careful_of_makes (makes_binding _ _) fun item novel => ?_
    exact settles_bind (settles_bind (orderly_pure _).settles fun _ => (orderly_read _).settles)
      fun w => add item novel w
  exact bind.bind fun _ => (orderly_pure _).settles

private theorem careful_creates (i : Insertion) (creates : i.creates) :
    Careful s₀ (fun _ => True) i.program := by
  cases i with
  | addRule | addBuild | addPool => cases creates
  | rule d name command =>
      exact careful_of_makes (makes_rule _ _ _) fun _ novel => settles_documentInsert novel d _
  | pool d name depth =>
      exact careful_of_makes (makes_pool _ _ _ _) fun _ novel => settles_documentInsert novel d _
  | phony d outputs =>
      refine careful_bind (treads_mild enduring_true
        (looks_member d.toValue (by decide) (by decide)).mild) fun rule => ?_
      exact careful_of_makes (makes_build _ _ _) fun _ novel => settles_documentInsert novel d _
  | buildBy h outputs =>
      have made : Careful s₀ (fun _ => True) ((do (← h.statements).member "ownership") >>=
          fun ownership => BuildId.make h.toValue outputs ownership >>= fun b =>
            do (← h.statements).insert .build (.object (.build b))) := by
        refine careful_bind (treads_mild enduring_true (mild_ownership h)) fun ownership => ?_
        exact careful_of_makes (makes_build _ _ _) fun _ novel => settles_handleInsert novel h _
      simp only [LawfulMonad.bind_assoc] at made
      exact made
  | ruleBy h name command =>
      have made : Careful s₀ (fun _ => True) ((do (← h.statements).member "ownership") >>=
          fun ownership => RuleId.make name command ownership >>= fun r =>
            Receiver.usePool (.node (.rule r)) h.toValue >>= fun _ =>
              do (← h.statements).insert .rule (.object (.rule r))) := by
        refine careful_bind (treads_mild enduring_true (mild_ownership h)) fun ownership => ?_
        refine careful_bind (makes_rule _ _ _) fun r => ?_
        intro g s clean novel
        exact (careful_usePool r h.toValue).bind
          (fun _ => settles_handleInsert novel h _) g s clean trivial
      simp only [LawfulMonad.bind_assoc] at made
      exact made

theorem careful_program (c : Addition) (fits : c.fits) :
    Careful s₀ (fun _ => True) c.program := by
  have adds {p : Action Value} (makes : Makes s₀ p id) (d : DocumentId) :
      Careful s₀ (fun _ => True) (chained (.document d) (p >>= fun v => d.add v)) :=
    (careful_of_makes makes fun _ novel => settles_documentAdd novel d).bind
      fun _ => (orderly_pure _).settles
  have extends_ (l : ListId) (items : List Value) : Settles s₀ (l.extend items) :=
    (orderly_guarded _ _ (orderly_modify (steadfast_append l items))).settles
  cases c with
  | insert i =>
      have creates : i.creates := by simp_all [Addition.fits]
      exact (careful_creates i creates).bind fun _ => (orderly_pure _).settles
  | comment d text => exact adds (makes_comment text) d
  | binding d name value => exact adds (makes_binding name value) d
  | defaults d outputs => exact adds (makes_defaults outputs) d
  | subninja d path => exact adds (makes_subninja path) d
  | inclusion d path => exact adds (makes_inclusion path) d
  | items l items =>
      refine careful_bind (treads_mild enduring_true (mild_aside (aside_iterate items))) fun items => ?_
      exact ((extends_ l items).careful).bind fun _ => (orderly_pure _).settles
  | paths o r slot paths =>
      refine Careful.bind ?_ fun _ => (orderly_pure _).settles
      refine careful_bind (treads_mild enduring_true (looks_part r _).mild) fun w => ?_
      refine careful_bind (treads_ofExcept enduring_true _) fun l => ?_
      refine careful_bind (treads_mild enduring_true (mild_aside (aside_arguments paths))) fun texts => ?_
      exact (extends_ l _).careful

variable {c : Addition} {env : Store → Store → Prop} {s s' : Store} {κ : Type}

/-- Whatever others do in between, a source among them that the call takes items from: an
addition that fails because of what it was given has itself changed nothing that was there
before any of its steps, except for lists that it had made itself, so that everything is as
it was at the start that others have left alone.  It has left all guards; those that were
free, and that others do not stay in, admit everyone. -/
theorem rejected_traceless {t : ThreadId} {call : κ} {task : Task κ} (fits : c.fits)
    (fresh : s.Fresh) (lasts : ∀ a b, env a b → s.Since a → s.Since b)
    (run : Task.Among env (.start t call c.program) s task s') {fault : Fault}
    (ended : task.outcome? = some (.error fault)) (rejected : fault.rejects) :
    Traceless s task.progress.trail ∧ Spared env s s' ∧ task.progress.inside = [] ∧
      (Mannerly env → ∀ lock, (s.guard lock).Free →
        ∀ u mode, ∃ g, (s'.guard lock).request u mode = .entered g) := by
  have tame : Action.Tame true c.program := by
    obtain ⟨m, hm, -, hrun⟩ := c.exists_method fits
    rw [← hrun]
    exact tame_methods _ m hm _
  have disciplined : c.program.Disciplined LeavesGuards _ none :=
    tame.disciplined.mono (fun f effect s lock => (effect s).keepsGuard lock) fun _ => id
  have since : s.Since s := ⟨fun _ => id, fun i hi => fresh i hi "kind"⟩
  obtain ⟨s₀, -, clean⟩ := run.outcome (steady_heedless s) trivial
    (fun a b since change => ⟨fun _ => trivial, lasts a b change since⟩)
    (c.careful_program fits .start s .nil trivial) since ended
  have traceless := clean fault rfl rejected
  refine ⟨traceless, traceless.spared run, run.left_guards disciplined ended,
    fun mannerly lock free u mode => ?_⟩
  · obtain ⟨g, entered, -⟩ := (run.free mannerly disciplined ended free).request u mode
    exact ⟨g, entered⟩

/-- A store with a rule and a build. -/
def stocked : Store :=
  let makes : Action BuildId := do
    let r ← RuleId.make (.text "r") (.text "c") (.ownership .single)
    BuildId.make (.object (.rule r)) (.text "o") (.ownership .single)
  (makes.alone (.ofFiles ⟨[], []⟩)).2

/-- Two paths for the build, of which the second has no text. -/
def half : Addition := .paths (.build ⟨0⟩) (.node (.build ⟨0⟩)) .inputs (.list [.text "x", .null])

/-- The paths are given to the build. -/
def denied : Task Unit × Store := Task.move^[10] (.start 0 () half.program, stocked)

theorem rejected_traceless_half :
    half.fits ∧ denied.1.outcome? = some (.error (.unconvertible "NoneType")) ∧
      Traceless stocked denied.1.progress.trail ∧ Spared Store.Adds stocked denied.2 ∧
      denied.1.progress.inside = [] ∧
      (Mannerly Store.Adds → ∀ lock, (stocked.guard lock).Free →
        ∀ u mode, ∃ g, (denied.2.guard lock).request u mode = .entered g) := by
  have fits : half.fits := rfl
  have ended : denied.1.outcome? = some (.error (.unconvertible "NoneType")) := rfl
  have lasts (a b : Store) (adds : a.Adds b) (since : stocked.Since a) : stocked.Since b := by
    refine ⟨fun i hi => adds.knows (since.known i hi), fun i hi => ?_⟩
    rw [Store.assigned?, adds.assigned]
    exact since.kinds i hi
  exact ⟨fits, ended, rejected_traceless fits (fun _ _ _ => rfl) lasts
    (Task.Among.moves _ _ _ 10) ended rfl⟩

end Addition

end Script

end NinjaFile
