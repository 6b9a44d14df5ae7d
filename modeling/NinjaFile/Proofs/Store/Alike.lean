import NinjaFile.Proofs.Program.Looking
import NinjaFile.Proofs.Sharing.Acts

/-!
# What looks the same

Guards, log lines and sources say nothing about what a handle leads to or what a statement
is called.  Looking for these gives the same whatever happens to the former meanwhile.
-/

namespace NinjaFile

open Program Store

namespace Store.Alike

variable {s s' : Store}

theorem trans {s'' : Store} (h : s.Alike s') (h' : s'.Alike s'') : s.Alike s'' where
  size := h'.size.trans h.size
  items l := (h'.items l).trans (h.items l)
  ownership l := (h'.ownership l).trans (h.ownership l)
  rules := h'.rules.trans h.rules
  builds := h'.builds.trans h.builds
  pools := h'.pools.trans h.pools
  documents := h'.documents.trans h.documents
  assigned := h'.assigned.trans h.assigned

theorem assigned?_eq (h : s.Alike s') (i : Identity) (name : String) :
    s'.assigned? i name = s.assigned? i name := by
  rw [assigned?, assigned?, h.assigned]

theorem document_eq (h : s.Alike s') (d : DocumentId) : s'.document d = s.document d := by
  rw [document, document, h.documents]

theorem partValue_eq (h : s.Alike s') (n : Node) (q : Part) : s'.partValue n q = s.partValue n q := by
  rw [partValue, partValue, h.assigned?_eq, h.part]

theorem nodeField?_eq (h : s.Alike s') (n : Node) (name : String) :
    n.field? s' name = n.field? s name := by
  simp only [Node.field?, Store.rule, Store.pool, Store.build, h.rules, h.pools, h.builds]

private theorem field?_eq (h : s.Alike s') (o : Object) {name : String}
    (blocking : name ≠ "blocking") (guard : name ≠ "_guard") : o.field? s' name = o.field? s name := by
  unfold Object.field?
  split <;> first
    | exact absurd rfl blocking
    | exact absurd rfl guard
    | simp only [h.items, h.ownership, h.document_eq, h.part, h.nodeField?_eq]

theorem stored?_eq (h : s.Alike s') (v : Value) {name : String} (blocking : name ≠ "blocking")
    (guard : name ≠ "_guard") : v.stored? s' name = v.stored? s name := by
  have field : v.field? s' name = v.field? s name := by
    unfold Value.field?
    split
    · exact h.field?_eq _ blocking guard
    all_goals rfl
  simp only [Value.stored?, h.assigned?_eq, field]

/-! ## Equality and keys -/

private theorem sameTo_eq (h : s.Alike s') (depth : Nat) : Value.sameTo s' depth = Value.sameTo s depth := by
  induction depth with
  | zero => rfl
  | succ depth ih =>
      have objects : Value.sameObject s' (Value.sameTo s' depth) =
          Value.sameObject s (Value.sameTo s depth) := by
        funext a b
        have have_eq (same : Value → Value → Bool) (name : String) (blocking : name ≠ "blocking")
            (guard : name ≠ "_guard") :
            Value.bothHave s' same name a b = Value.bothHave s same name a b := by
          rw [Value.bothHave, Value.bothHave, h.stored?_eq _ blocking guard,
            h.stored?_eq _ blocking guard]
        rw [ih]
        unfold Value.sameObject
        split <;> first
          | rfl
          | simp only [have_eq _ "statements" (by decide) (by decide),
              have_eq _ "index" (by decide) (by decide)]
          | simp only [have_eq _ "indent" (by decide) (by decide)]
      rw [Value.sameTo, Value.sameTo, objects]

theorem same_eq (h : s.Alike s') : Value.same s' = Value.same s := by
  funext a b
  rw [Value.same, Value.same, h.sameTo_eq]

mutual

theorem unhashable?_eq (h : s.Alike s') (v : Value) :
    Value.unhashable? s' v = Value.unhashable? s v := by
  cases v with
  | tuple items =>
      rw [Value.unhashable?, Value.unhashable?]
      exact firstUnhashable?_eq h items
  | object o =>
      cases o with
      | handle g =>
          have index : ("index" : String) ≠ "blocking" ∧ ("index" : String) ≠ "_guard" := by decide
          simp only [Value.unhashable?, h.stored?_eq _ index.1 index.2]
      | _ => simp only [Value.unhashable?]
  | bytes form content => cases form <;> simp only [Value.unhashable?]
  | _ => simp only [Value.unhashable?]

private theorem firstUnhashable?_eq (h : s.Alike s') (items : List Value) :
    Value.firstUnhashable? s' items = Value.firstUnhashable? s items := by
  cases items with
  | nil => rfl
  | cons v rest =>
      rw [Value.firstUnhashable?, Value.firstUnhashable?, unhashable?_eq h v,
        firstUnhashable?_eq h rest]

end

end Store.Alike

/-! ## Looks -/

section Looks

variable {α : Type}

theorem looks_read {f : Store → α} (h : ∀ s s' : Store, s.Alike s' → f s' = f s) :
    (Action.read f).Looks Store.Alike :=
  ⟨fun _ => rfl, fun s s' like => congrArg Program.pure (h s s' like), fun _ => trivial⟩

theorem looks_snapshot (id : ListId) : id.snapshot.Looks Store.Alike :=
  looks_guarded _ _ (P := fun _ => True) ⟨trivial, fun _ => trivial⟩ (looks_read fun _ _ like => like.items id)

theorem looks_listItem (id : ListId) (index : Value) : (id.item index).Looks Store.Alike := by
  refine looks_guarded _ _ (P := fun _ => True) ?_ ?_
  · exact swift_bind ⟨trivial, fun _ => trivial⟩ fun _ => swift_ofExcept _
  · exact looks_bind (looks_read fun _ _ like => like.items id) fun _ => looks_ofExcept _

theorem looks_entryOf (entries : List (Value × Value)) (key : Value) (shown : String) :
    (Value.entryOf entries key shown).Looks Store.Alike := by
  refine looks_bind (looks_read fun _ _ like => like.unhashable?_eq key) fun found => ?_
  split
  · trivial
  · refine looks_bind (looks_read fun s s' like => ?_) fun found => ?_
    · rw [Value.entry?, Value.entry?, like.same_eq]
    · split <;> trivial

theorem looks_item (v index : Value) (shown : String) :
    (v.item index shown).Looks Store.Alike := by
  rw [Value.item.eq_def]
  split
  · exact looks_listItem _ _
  · exact looks_listItem _ _
  all_goals first | exact looks_ofExcept _ | exact looks_entryOf _ _ _ | trivial

theorem looks_stored (v : Value) {name : String} (blocking : name ≠ "blocking")
    (guard : name ≠ "_guard") : (Action.read fun s => v.stored? s name).Looks Store.Alike :=
  looks_read fun _ _ like => like.stored?_eq v blocking guard

theorem looks_storedMember (v : Value) {name : String} (blocking : name ≠ "blocking")
    (guard : name ≠ "_guard") : (v.storedMember name).Looks Store.Alike := by
  refine looks_bind (looks_stored v blocking guard) fun found => ?_
  split <;> trivial

theorem looks_handleStatements (h : Handle) : h.statements.Looks Store.Alike :=
  looks_read fun _ _ like => by rw [like.stored?_eq _ (by decide) (by decide)]

theorem looks_statement (h : Handle) : h.statement.Looks Store.Alike := by
  refine looks_bind (looks_handleStatements h) fun statements => ?_
  refine looks_bind (looks_read fun _ _ like => ?_) fun index => ?_
  · rw [like.stored?_eq _ (by decide) (by decide)]
  · refine looks_bind (looks_item _ _ _) fun v => ?_
    split <;> trivial

theorem looks_member (v : Value) {name : String} (blocking : name ≠ "blocking")
    (guard : name ≠ "_guard") : (v.member name).Looks Store.Alike := by
  rw [Value.member.eq_def]
  split
  · rw [Handle.member]
    split
    · refine looks_bind (looks_statement _) fun v => ?_
      split
      · exact looks_storedMember v blocking guard
      · trivial
    · exact looks_storedMember _ blocking guard
  · exact looks_storedMember _ blocking guard

theorem looks_resolve (r : Receiver) : r.resolve.Looks Store.Alike := by
  cases r with
  | node n => trivial
  | handle h =>
      refine looks_bind (looks_statement h) fun v => ?_
      split <;> trivial
  | mixin m => trivial

theorem looks_part (r : Receiver) (q : Part) : (r.part q).Looks Store.Alike :=
  looks_bind (looks_resolve r) fun n => looks_read fun _ _ like => like.partValue_eq n q

theorem seen_part (r : Receiver) (q : Part) (s : Store) :
    (r.part q).seen s = r.resolve.seen s >>= fun n => .ok (s.partValue n q) :=
  seen_bind ..

end Looks

/-! ## Terms among those who only look on -/

/-- Others enter and leave guards, write log lines and take items of sources. -/
def calm : Terms Store where
  inv _ := True
  rely _ s s' := s.Alike s'
  keeps _ _ _ := True
  enters _ _ _ _ := True
  refuses := True

theorem steady_calm : calm.Steady where
  refl _ s _ := .refl s
  trans _ _ _ _ := .trans
  inv_setGuard _ _ _ _ := trivial
  rely_setGuard _ s lock g _ := .setGuard s lock g

/-- A look gives what could be seen, unless a guard is refused. -/
theorem wp_look {α : Type} {p : Action α} (h : p.Looks Store.Alike) {g : Progress Store}
    {s₀ s : Store} (like : s₀.Alike s) :
    p.wp calm (fun r _ s' => s₀.Alike s' ∧ (r = p.seen s₀ ∨ ∃ fault, r = .error (.borrow fault))) g s :=
  h.wp (fun _ _ _ => .trans) (fun _ _ _ => id) (fun _ _ _ => trivial) (fun _ _ _ _ => trivial) like

/-- What the program does itself does not matter either. -/
theorem wp_alike {α : Type} {p : Action α} (h : p.Every fun f => ∀ s : Store, s.Alike (f s))
    {s₀ s : Store} (like : s₀.Alike s) {g : Progress Store} :
    p.wp calm (fun _ _ s' => s₀.Alike s') g s := by
  refine wp_of_every (fun _ s => s₀.Alike s) ?_ ?_ (fun _ _ _ _ h => h) h like
  · exact fun f _ _ s' hf like between _ => ⟨trivial, trivial, (like.trans between).trans (hf s')⟩
  · exact fun _ _ _ _ _ like between _ => ⟨trivial, like.trans between, like.trans between⟩

/-! ## Log lines -/

section Quiet

variable {α β : Type}

/-- A program that writes log lines at most. -/
abbrev Action.Quiet (p : Action α) : Prop :=
  p.Every fun f => ∀ s : Store, ∃ logging, f s = { s with logging := logging }

theorem Program.Looks.quiet {p : Action α} (h : p.Looks Store.Alike) : Action.Quiet p :=
  h.every.mono fun _ same s => ⟨s.logging, same s⟩

theorem quiet_read (f : Store → α) : Action.Quiet (Action.read f) :=
  ⟨fun s => ⟨s.logging, rfl⟩, fun _ => trivial⟩

theorem quiet_write (f : Store → Logging) :
    Action.Quiet (.modify fun s => { s with logging := f s }) :=
  ⟨fun s => ⟨f s, rfl⟩, fun _ => trivial⟩

theorem quiet_truth (v : Value) : Action.Quiet v.truth := by
  have length (l : ListId) : Action.Quiet l.length := every_guarded _ _ (quiet_read _)
  rw [Value.truth.eq_def]
  split
  · exact every_bind (length _) fun _ => trivial
  · exact every_bind (length _) fun _ => trivial
  · trivial

theorem quiet_logBy (view : Option View) (level : Int) (text : String) :
    Action.Quiet (logBy view level text) := by
  have lets (view : View) (level : Value) : Action.Quiet (view.loggerLets level) := by
    refine every_bind (quiet_read _) fun found => ?_
    split
    · trivial
    · refine every_bind (every_ofExcept _) fun off => ?_
      split
      · trivial
      · exact every_bind (quiet_read _) fun _ => every_ofExcept _
  have admits (view : View) (level : Value) : Action.Quiet (view.admits level) := by
    refine every_bind (quiet_read _) fun switch => every_bind (quiet_truth _) fun on => ?_
    split
    · refine every_bind (quiet_read _) fun limit => every_bind (every_ofExcept _) fun beyond => ?_
      split
      · exact lets view level
      · trivial
    · trivial
  cases view with
  | none => trivial
  | some view =>
      refine every_bind (quiet_read _) fun plain => ?_
      split
      · exact quiet_write _
      · refine every_bind (admits view _) fun admitted => ?_
        split
        · split
          · exact quiet_write _
          · trivial
        · trivial

theorem quiet_logAppended (a : Arena) (v : Value) (index : Nat) :
    Action.Quiet (a.logAppended v index) := by
  have kind : Action.Quiet v.kindWord := by
    refine every_bind (looks_member v (by decide) (by decide)).quiet fun kind => ?_
    split
    · trivial
    · refine every_bind (looks_member _ (by decide) (by decide)).quiet fun name => ?_
      split <;> trivial
  refine every_bind (looks_member _ (by decide) (by decide)).quiet fun logger => ?_
  refine every_bind (every_ofExcept _) fun view => ?_
  exact every_bind kind fun word => quiet_logBy view _ _

theorem Action.Quiet.alike {p : Action α} (h : Action.Quiet p) :
    p.Every fun f => ∀ s : Store, s.Alike (f s) := by
  refine Every.mono (fun f hf s => ?_) h
  obtain ⟨logging, heq⟩ := hf s
  rw [heq]
  exact .of_lists rfl rfl rfl rfl rfl rfl

end Quiet

end NinjaFile

/-!
## What goes on aside

Log lines are written and items are taken out of sources, while lists and statements stay
what they are.
-/

namespace NinjaFile

open Program Store

/-- A step that changes log lines and sources at most. -/
def Aside (f : Store → Store) : Prop :=
  ∀ s, ∃ logging sources, f s = { s with logging := logging, sources := sources }

theorem Aside.alike {f : Store → Store} (h : Aside f) (s : Store) : s.Alike (f s) := by
  obtain ⟨logging, sources, heq⟩ := h s
  rw [heq]
  exact .of_lists rfl rfl rfl rfl rfl rfl

/-- A step that changes log lines, sources and the next serial number at most. -/
def Clerical (f : Store → Store) : Prop :=
  ∀ s, ∃ logging sources serial, s.serial ≤ serial ∧
    f s = { s with logging := logging, sources := sources, serial := serial }

theorem Aside.clerical {f : Store → Store} (h : Aside f) : Clerical f := fun s => by
  obtain ⟨logging, sources, heq⟩ := h s
  exact ⟨logging, sources, s.serial, Nat.le_refl _, heq⟩

theorem clerical_serial {n : Store → Serial} (h : ∀ s, s.serial ≤ n s) :
    Clerical fun s => { s with serial := n s } :=
  fun s => ⟨s.logging, s.sources, n s, h s, rfl⟩

section

variable {α : Type}

theorem Program.Looks.aside {p : Action α} (h : p.Looks Store.Alike) : p.Every Aside :=
  h.every.mono fun _ same s => ⟨s.logging, s.sources, same s⟩

theorem Action.Quiet.aside {p : Action α} (h : Action.Quiet p) : p.Every Aside :=
  Every.mono (fun _ hf s => (hf s).imp fun _ heq => ⟨s.sources, heq⟩) h

theorem aside_read (f : Store → α) : (Action.read f).Every Aside :=
  ⟨fun s => ⟨s.logging, s.sources, rfl⟩, fun _ => trivial⟩

theorem aside_modifySource (id : SourceId) (f : Source → Source) :
    Aside fun s => s.modifySource id f :=
  fun s => ⟨s.logging, _, rfl⟩

theorem aside_snapshot (l : ListId) : l.snapshot.Every Aside := (looks_snapshot l).aside

theorem aside_close (id : SourceId) : id.close.Every Aside := by
  refine every_bind (aside_read _) fun source => ?_
  split
  · trivial
  · refine every_bind (every_modify (aside_modifySource id _)) fun _ => ?_
    refine every_bind (every_request id) fun _ => ?_
    refine every_bind (every_modify (aside_modifySource id _)) fun _ => ?_
    split <;> trivial

theorem aside_takeArguments (id : SourceId) : id.takeArguments.Every Aside := by
  refine every_update fun s => ?_
  dsimp only
  split
  · exact ⟨s.logging, s.sources, rfl⟩
  · split <;> exact aside_modifySource id _ s

theorem aside_takeItems (id : SourceId) : id.takeItems.Every Aside := by
  refine every_update fun s => ?_
  dsimp only
  split
  · exact ⟨s.logging, s.sources, rfl⟩
  · exact aside_modifySource id _ s

theorem aside_arguments (v : Value) : v.arguments.Every Aside := by
  rw [Value.arguments.eq_def]
  split
  · trivial
  · split
    · exact every_bind (every_ofExcept _) fun _ => trivial
    · split
      · exact every_ofExcept _
      · exact every_bind (aside_snapshot _) fun _ => every_ofExcept _
      · refine every_bind (aside_takeArguments _) fun _ => every_bind (every_ofExcept _) fun _ => ?_
        exact every_bind (aside_close _) fun _ => trivial
      · trivial

theorem aside_iterate (v : Value) : v.iterate.Every Aside := by
  rw [Value.iterate]
  split
  · trivial
  · exact aside_snapshot _
  · refine every_bind (aside_takeItems _) fun _ => every_bind (every_ofExcept _) fun _ => ?_
    exact every_bind (aside_close _) fun _ => trivial
  · trivial

end

end NinjaFile
