import NinjaFile.Manifest.Builder
import NinjaFile.Proofs.Program.Discipline
import NinjaFile.Proofs.Program.Faults
import NinjaFile.Proofs.Store.Effect

/-!
# Tame actions

An action is tame if each of its acts has one of the effects that are known, if it is in
one guard at a time and leaves sources alone in there, and if it fails for want of a guard
only where one is refused.  All actions of the library are, apart from those that make a
document.
-/

namespace NinjaFile

/-- A tame action; `w` is for those that may write to files. -/
structure Action.Tame {α : Type} (w : Bool) (p : Action α) : Prop where
  disciplined : p.Disciplined (fun f => ∀ s, Store.Effect w s (f s))
    (fun f => ∀ s, (f s).sources = s.sources) none
  ends : p.Ends Granted

open Action Store

variable {α β : Type} {w : Bool}

theorem Action.Tame.every {p : Action α} (h : Tame w p) : p.Every fun f => ∀ s, Effect w s (f s) :=
  h.disciplined.every

/-! ## Putting actions together -/

@[grind ←] theorem tame_pure (a : α) : Tame w (Pure.pure a) := ⟨rfl, granted_ok a⟩

theorem tame_fail {fault : Fault} (h : fault.isBorrow = false) :
    Tame w (.fail fault : Action α) := ⟨rfl, granted_error h⟩

@[grind ←] theorem tame_otherFail {fault : Fault} (h : ∀ b, fault ≠ .borrow b) :
    Tame w (.fail fault : Action α) := tame_fail (Fault.isBorrow_eq_false h)

@[grind ←] theorem tame_bind {p : Action α} {k : α → Action β} (hp : Tame w p)
    (hk : ∀ a, Tame w (k a)) : Tame w (p >>= k) where
  disciplined := Program.disciplined_bind hp.disciplined fun a => (hk a).disciplined
  ends := hp.ends.bind (fun a _ => (hk a).ends) fun fault h => granted_error (h fault rfl)

@[grind ←] theorem tame_attempt {p : Action α} (hp : Tame w p) : Tame w p.attempt :=
  ⟨Program.disciplined_attempt hp.disciplined, hp.ends.attempt fun _ _ => granted_ok _⟩

@[grind ←] theorem tame_ofExcept {r : Except Fault α} (h : Granted r) :
    Tame w (Program.ofExcept r) :=
  ⟨Program.disciplined_ofExcept r, Program.ends_ofExcept h⟩

@[grind ←] theorem tame_request (id : SourceId) : Tame w (.request id) := ⟨⟨rfl, rfl⟩, granted_ok ()⟩

@[grind ←] theorem tame_read (f : Store → α) : Tame w (Action.read f) :=
  ⟨⟨fun _ => .same, fun _ _ => rfl, fun _ => rfl⟩, fun _ => granted_ok _⟩

/-- The outcome that an action gives as an answer is not for want of a guard. -/
def Action.Gives (p : Action (Except Fault α)) : Prop :=
  p.Ends fun r => ∀ outcome, r = .ok outcome → Granted outcome

theorem gives_update {f : Store → Except Fault α × Store} (h : ∀ s, Granted (f s).1) :
    Gives (.update f) := by
  rintro s _ ⟨⟩
  exact h s

theorem gives_read {f : Store → Except Fault α} (h : ∀ s, Granted (f s)) :
    Gives (Action.read f) := by
  rintro s _ ⟨⟩
  exact h s

theorem tame_unwrap {p : Action (Except Fault α)} {k : α → Action β} (hp : Tame w p)
    (gives : Gives p) (hk : ∀ a, Tame w (k a)) :
    Tame w (p >>= fun r => Program.ofExcept r >>= k) where
  disciplined := Program.disciplined_bind hp.disciplined fun r =>
    Program.disciplined_bind (Program.disciplined_ofExcept r) fun a => (hk a).disciplined
  ends := (hp.ends.and gives).bind
    (fun r h => (Program.ends_ofExcept (h.2 r rfl)).bind (fun a _ => (hk a).ends)
      fun fault h => granted_error (h fault rfl))
    fun fault h => granted_error (h.1 fault rfl)

theorem tame_read_bind {f : Store → α} {k : α → Action β} (hk : ∀ s, Tame w (k (f s))) :
    Tame w (Action.read f >>= k) :=
  ⟨⟨fun _ => .same, fun inside => absurd rfl inside, fun s => (hk s).disciplined⟩,
    fun s => (hk s).ends⟩

theorem tame_modify {f : Store → Store} (h : ∀ s, Effect w s (f s)) : Tame w (.modify f) :=
  ⟨Program.disciplined_modify h, fun _ => granted_ok ()⟩

theorem tame_update {f : Store → α × Store} (h : ∀ s, Effect w s (f s).2) : Tame w (.update f) :=
  ⟨Program.disciplined_update h, fun _ => granted_ok _⟩

/-- An act that can be done inside a guard. -/
def QuietEffect (w : Bool) (f : Store → Store) : Prop :=
  (∀ s, Effect w s (f s)) ∧ ∀ s, (f s).sources = s.sources

theorem tame_guarded {body : Action α} (lock : LockId) (mode : Mode)
    (swift : body.Swift (QuietEffect w)) (ends : body.Ends Granted) :
    Tame w (.guarded lock mode body) :=
  ⟨Program.disciplined_guarded lock mode swift, ends.guarded lock mode⟩

theorem swift_read (f : Store → α) : (Action.read f).Swift (QuietEffect w) :=
  ⟨⟨fun _ => .same, fun _ => rfl⟩, fun _ => trivial⟩

@[grind ←] theorem tame_readGuarded (lock : LockId) (f : Store → α) :
    Tame w (.guarded lock .read (Action.read f)) :=
  tame_guarded lock .read (swift_read f) fun _ => granted_ok _

/-! ## Lists -/

@[grind ←] theorem tame_listMake (ownership : Ownership) (blocking : Bool) (items : List Value) :
    Tame w (ListId.make ownership blocking items) :=
  tame_update fun s =>
    show Effect w s (s.insertList _).2 from
      .list (.make ownership blocking items) (Guard.free_ofOwnership ..) [] plainAttributes_nil

private theorem plainAttributes_one {name : String} (v : Value) (h : name ≠ "statements") :
    PlainAttributes [(name, v)] :=
  plainAttributes_cons (.inl h) plainAttributes_nil

@[grind ←] theorem tame_listMakeWith (ownership : Ownership) (blocking : Value)
    (items : List Value) : Tame w (ListId.makeWith ownership blocking items) := by
  refine tame_update fun s => ?_
  refine Effect.list (.make ownership blocking.isTrue items) (Guard.free_ofOwnership ..) _ ?_
  split
  · exact plainAttributes_nil
  · exact plainAttributes_one _ (by decide)

@[grind ←] theorem tame_listAdd (id : ListId) (item : Value) : Tame w (id.add item) :=
  tame_guarded _ _ (Program.swift_update ⟨fun _ => .append id [item], fun _ => rfl⟩)
    fun _ => granted_ok _

@[grind ←] theorem tame_listExtend (id : ListId) (items : List Value) : Tame w (id.extend items) :=
  tame_guarded _ _ (Program.swift_modify ⟨fun _ => .append id items, fun _ => rfl⟩)
    fun _ => granted_ok _

@[grind ←] theorem tame_listSnapshot (id : ListId) : Tame w id.snapshot :=
  tame_readGuarded _ _

@[grind ←] theorem tame_listLength (id : ListId) : Tame w id.length :=
  tame_readGuarded _ _

@[grind ←] theorem tame_listAdopt (id : ListId) (ownership : Value) :
    Tame w (id.adopt ownership) := by
  grind [ListId.adopt]

@[grind ←] theorem tame_listItem (id : ListId) (index : Value) : Tame w (id.item index) := by
  refine tame_guarded _ _ ?_ ?_
  · exact Program.swift_bind (swift_read _) fun items => Program.swift_ofExcept _
  · exact fun s => Program.ends_ofExcept (Value.granted_listItem _ _)

/-! ## Nodes -/

@[grind ←] theorem tame_valueAdopt (v ownership : Value) : Tame w (v.adopt ownership) := by
  rw [Value.adopt.eq_def]
  split <;> grind

/-- What is adopted is a list in the end. -/
theorem adoptPart_eq (node : Node) (ownership : Value) (part : Part) :
    node.adoptPart ownership part =
      (Action.read fun s => s.partValue node part) >>= fun v =>
        match v with
        | .object (.list id) =>
            id.adopt ownership >>= fun list =>
              .modify fun s => s.putPart node part (.object (.list list))
        | v => .fail (.noAttribute v.typeName "adopt") := by
  rw [Node.adoptPart]
  congr 1
  funext v
  cases v with
  | object o =>
      cases o with
      | list id => simp [Value.adopt, Program.bind_assoc]
      | _ => rfl
  | _ => rfl

@[grind ←] theorem tame_adoptPart (node : Node) (ownership : Value) (part : Part) :
    Tame w (node.adoptPart ownership part) := by
  rw [adoptPart_eq]
  refine tame_bind (tame_read _) fun v => ?_
  split
  · exact tame_bind (tame_listAdopt _ _) fun list => tame_modify fun _ => .part node part list
  · exact tame_fail rfl

@[grind ←] theorem tame_adopt (node : Node) (ownership : Value) : Tame w (node.adopt ownership) := by
  rw [Node.adopt]
  induction node.parts with
  | nil => exact tame_pure ()
  | cons part rest ih => exact tame_bind (tame_adoptPart _ _ _) fun _ => ih

/-! ## Taking items out of values -/

private theorem tame_source (id : SourceId) (f : Store → α × Store)
    (h : ∀ s, (f s).2 = s ∨ ∃ g, (f s).2 = s.modifySource id g) : Tame w (.update f) := by
  refine tame_update fun s => ?_
  rcases h s with heq | ⟨g, heq⟩
  · rw [heq]
    exact .same
  · rw [heq]
    exact .source id g

@[grind ←] theorem tame_takeArguments (id : SourceId) : Tame w id.takeArguments := by
  refine tame_source id _ fun s => ?_
  dsimp only
  split
  · exact .inl rfl
  · split <;> exact .inr ⟨_, rfl⟩

@[grind ←] theorem tame_takeItems (id : SourceId) : Tame w id.takeItems := by
  refine tame_source id _ fun s => ?_
  dsimp only
  split
  · exact .inl rfl
  · exact .inr ⟨_, rfl⟩

@[grind ←] theorem tame_takeUntil (id : SourceId) (v : Value) : Tame w (id.takeUntil v) := by
  refine tame_source id _ fun s => ?_
  dsimp only
  split
  · exact .inl rfl
  · exact .inr ⟨_, rfl⟩

@[grind ←] theorem gives_takeArguments (id : SourceId) : Gives id.takeArguments := by
  refine gives_update fun s => ?_
  dsimp only
  split
  · exact granted_error rfl
  · split
    · next htake => exact granted_error (Value.isBorrow_takeArguments htake)
    · exact granted_ok _

@[grind ←] theorem gives_takeItems (id : SourceId) : Gives id.takeItems := by
  refine gives_update fun s => ?_
  dsimp only
  split
  · exact granted_error rfl
  · exact granted_ok _

@[grind ←] theorem gives_takeUntil (id : SourceId) (v : Value) : Gives (id.takeUntil v) := by
  refine gives_update fun s => ?_
  dsimp only
  split
  · exact granted_error rfl
  · exact granted_ok _

@[grind ←] theorem tame_close (id : SourceId) : Tame w id.close := by
  refine tame_bind (tame_read _) fun source => ?_
  split
  · exact tame_pure ()
  · refine tame_bind (tame_modify fun _ => .source id _) fun _ => ?_
    refine tame_bind (tame_request id) fun _ => ?_
    refine tame_bind (tame_modify fun _ => .source id _) fun _ => ?_
    split
    · exact tame_pure ()
    · exact tame_fail rfl

@[grind ←] theorem tame_sourceArguments (id : SourceId) : Tame w id.arguments :=
  tame_unwrap (tame_takeArguments id) (gives_takeArguments id) fun _ =>
    tame_bind (tame_close id) fun _ => tame_pure _

@[grind ←] theorem tame_iterate (v : Value) : Tame w v.iterate := by
  rw [Value.iterate]
  split
  · exact tame_pure _
  · exact tame_listSnapshot _
  · exact tame_unwrap (tame_takeItems _) (gives_takeItems _) fun _ =>
      tame_bind (tame_close _) fun _ => tame_pure _
  · exact tame_fail rfl

@[grind ←] theorem tame_length (v : Value) : Tame w v.length := by
  rw [Value.length.eq_def]
  split <;> grind

@[grind ←] theorem tame_truth (v : Value) : Tame w v.truth := by
  rw [Value.truth.eq_def]
  split <;> grind

@[grind ←] theorem tame_holds (v : Value) (key : String) : Tame w (v.holds key) := by
  rw [Value.holds.eq_def]
  split
  · exact tame_pure _
  · exact tame_pure _
  · exact tame_fail rfl
  · exact tame_pure _
  · split
    · exact tame_read _
    · exact tame_bind (tame_listSnapshot _) fun _ => tame_read _
    · refine tame_unwrap (tame_takeUntil _ _) (gives_takeUntil _ _) fun found => ?_
      split
      · exact tame_pure _
      · exact tame_bind (tame_close _) fun _ => tame_pure _
    · exact tame_fail rfl

@[grind ←] theorem tame_arguments (v : Value) : Tame w v.arguments := by
  rw [Value.arguments.eq_def]
  split
  · exact tame_pure _
  · split
    · exact tame_bind (tame_ofExcept (Value.granted_toArgument _)) fun _ => tame_pure _
    · split <;> grind

@[grind ←] theorem tame_entryOf (entries : List (Value × Value)) (key : Value) (shown : String) :
    Tame w (Value.entryOf entries key shown) := by
  grind [Value.entryOf]

@[grind ←] theorem tame_item (v index : Value) (shown : String) : Tame w (v.item index shown) := by
  rw [Value.item.eq_def]
  split <;> grind

/-! ## Attributes and handles -/

@[grind ←] theorem tame_handleStatements (h : Handle) : Tame w h.statements := tame_read _

@[grind ←] theorem tame_place (h : Handle) : Tame w h.place := tame_read _

@[grind ←] theorem tame_statement (h : Handle) : Tame w h.statement := by
  refine tame_bind (tame_read _) fun _ => tame_bind (tame_read _) fun index => ?_
  refine tame_bind (tame_item _ _ _) fun v => ?_
  split
  · exact tame_pure v
  · exact tame_fail rfl

@[grind ←] theorem tame_handleNode (h : Handle) : Tame w h.node := by
  refine tame_bind (tame_statement _) fun v => ?_
  split
  · exact tame_pure _
  · exact tame_fail rfl

@[grind ←] theorem tame_storedMember (v : Value) (name : String) : Tame w (v.storedMember name) := by
  refine tame_bind (tame_read _) fun found => ?_
  split
  · exact tame_pure _
  · exact tame_fail rfl

@[grind ←] theorem tame_member (v : Value) (name : String) : Tame w (v.member name) := by
  rw [Value.member.eq_def]
  split
  · rw [Handle.member]
    split
    · refine tame_bind (tame_statement _) fun v => ?_
      split
      · exact tame_storedMember _ _
      · exact tame_pure v
    · exact tame_storedMember _ _
  · exact tame_storedMember _ _

@[grind ←] theorem tame_handleMake (expected : Expected) (statements index : Value) :
    Tame w (Handle.make expected statements index) := by
  unfold Handle.make
  refine tame_update fun s => ?_
  refine Effect.serial _ fun arena hmem => ?_
  rcases List.mem_append.mp hmem with h | h
  · split at h
    · cases h
    · next hne =>
        simp only [List.mem_singleton, Prod.mk.injEq, true_and] at h
        exact hne arena h.symm
  · split at h
    · cases h
    · simp at h

/-! ## Logging -/

theorem tame_logWrite (f : Store → Logging) :
    Tame w (.modify fun s => { s with logging := f s }) :=
  tame_modify fun _ => .log _

@[grind ←] theorem tame_loggerLets (view : View) (level : Value) : Tame w (view.loggerLets level) := by
  grind [View.loggerLets]

@[grind ←] theorem tame_admits (view : View) (level : Value) : Tame w (view.admits level) := by
  grind [View.admits, View.switch, View.limit]

@[grind ←] theorem tame_logAt (view : View) (level : Value) (text : String) :
    Tame w (view.logAt level text) := by
  refine tame_bind (tame_admits view level) fun admitted => ?_
  split
  · split
    · exact tame_logWrite _
    · exact tame_fail rfl
  · exact tame_pure ()

@[grind ←] theorem tame_log (view : View) (level : Int) (text : String) :
    Tame w (view.log level text) := by
  refine tame_bind (tame_read _) fun plain => ?_
  split
  · exact tame_logWrite _
  · exact tame_logAt _ _ _

@[grind ←] theorem tame_logBy (view : Option View) (level : Int) (text : String) :
    Tame w (logBy view level text) := by
  cases view with
  | none => exact tame_pure ()
  | some view => exact tame_log _ _ _

/-! ## Arenas -/

@[grind ←] theorem tame_kindWord (v : Value) : Tame w v.kindWord := by
  grind [Value.kindWord, Value.kindOf]

@[grind ←] theorem tame_arenaMake (ownership : Ownership) (view : Option View) :
    Tame w (Arena.make ownership view) := by
  exact tame_bind (tame_listMake _ _ _) fun _ => tame_pure _

@[grind ←] theorem tame_arenaMember (arena : Arena) (name : String) : Tame w (arena.member name) :=
  tame_member _ _

@[grind ←] theorem tame_arenaAdopt (arena : Arena) (v : Value) : Tame w (arena.adopt v) := by
  rw [Arena.adopt]
  split
  · exact tame_bind (tame_arenaMember _ _) fun _ => tame_adopt _ _
  · exact tame_pure ()

@[grind ←] theorem tame_logAppended (arena : Arena) (v : Value) (index : Nat) :
    Tame w (arena.logAppended v index) := by
  refine tame_bind (tame_arenaMember _ _) fun logger => ?_
  refine tame_bind (tame_ofExcept (Value.granted_logger? _ _)) fun view => ?_
  exact tame_bind (tame_kindWord _) fun word => tame_logBy _ _ _

@[grind ←] theorem tame_arenaAppend (arena : Arena) (v : Value) : Tame w (arena.append v) := by
  refine tame_bind (tame_arenaAdopt _ _) fun _ => ?_
  refine tame_bind (tame_listAdd _ _) fun index => ?_
  exact tame_bind (tame_logAppended _ _ _) fun _ => tame_pure index

@[grind ←] theorem tame_valueAppend (place v : Value) : Tame w (place.append v) := by
  rw [Value.append.eq_def]
  split
  · exact tame_arenaAppend _ _
  · exact tame_fail rfl

@[grind ←] theorem tame_insert (place : Value) (expected : Expected) (v : Value) :
    Tame w (place.insert expected v) := by
  exact tame_bind (tame_valueAppend _ _) fun _ => tame_handleMake _ _ _

/-! ## Attachments -/

@[grind ←] theorem tame_resolve (r : Receiver) : Tame w r.resolve := by
  rw [Receiver.resolve.eq_def]
  split
  · exact tame_pure _
  · exact tame_handleNode _
  · exact tame_fail rfl

@[grind ←] theorem tame_receiverPart (r : Receiver) (part : Part) : Tame w (r.part part) := by
  exact tame_bind (tame_resolve _) fun _ => tame_read _

@[grind ←] theorem tame_valueAdd (v item : Value) : Tame w (v.add item) := by
  rw [Value.add.eq_def]
  split
  · exact tame_bind (tame_listAdd _ _) fun _ => tame_pure ()
  · refine tame_bind (tame_read _) fun _ => ?_
    exact tame_bind (tame_valueAppend _ _) fun _ => tame_pure ()
  · exact tame_fail rfl

private theorem tame_nextSerial (f : Store → α) :
    Tame w (.update fun s => (f s, { s with serial := s.serial + 1 })) :=
  tame_update fun s => show Effect w s (s.insertSerial []).2 from .serial [] plainAttributes_nil

@[grind ←] theorem tame_makeObject (f : Serial → Object) : Tame w (makeObject f) :=
  tame_nextSerial fun s => Value.object (f s.serial)

@[grind ←] theorem tame_makeBinding (name value : Value) : Tame w (makeBinding name value) := by
  refine tame_bind (tame_ofExcept (Value.granted_toArgument _)) fun name => ?_
  refine tame_bind (tame_ofExcept (Value.granted_toArgument _)) fun value => ?_
  exact tame_nextSerial fun s => Value.object (.binding s.serial ⟨name, value⟩)

@[grind ←] theorem tame_attach (r : Receiver) (attachment : Attachment) :
    Tame w (r.attach attachment) := by
  induction attachment with
  | nil => exact tame_pure ()
  | cons head rest ih =>
      refine tame_bind ?_ fun _ => ih
      refine tame_bind (tame_makeBinding _ _) fun binding => ?_
      exact tame_bind (tame_receiverPart _ _) fun _ => tame_valueAdd _ _

@[grind ←] theorem tame_usePool (r : Receiver) (pool : Value) : Tame w (r.usePool pool) := by
  exact tame_bind (tame_member _ _) fun _ => tame_attach _ _

@[grind ←] theorem tame_addPaths (r : Receiver) (slot : Slot) (paths : Value) :
    Tame w (r.addPaths slot paths) := by
  refine tame_bind (tame_receiverPart _ _) fun _ => ?_
  refine tame_bind (tame_ofExcept (Value.granted_toExtend _)) fun list => ?_
  exact tame_bind (tame_arguments _) fun texts => tame_listExtend _ _

/-! ## Making nodes -/

@[grind ←] theorem tame_ruleMake (name command ownership : Value) :
    Tame w (RuleId.make name command ownership) := by
  refine tame_bind (tame_ofExcept (Value.granted_toArgument _)) fun name => ?_
  refine tame_bind (tame_ofExcept (Value.granted_ownershipOf _)) fun ownership => ?_
  refine tame_bind (tame_listMake _ _ _) fun bindings => ?_
  refine tame_bind (tame_makeBinding _ _) fun binding => ?_
  refine tame_bind (tame_listAdd _ _) fun _ => ?_
  exact tame_update fun _ => .rule _

@[grind ←] theorem tame_poolMake (name depth ownership builtIn : Value) :
    Tame w (PoolId.make name depth ownership builtIn) := by
  refine tame_bind (tame_ofExcept (Value.granted_toArgument _)) fun name => ?_
  refine tame_bind (tame_ofExcept (Value.granted_ownershipOf _)) fun ownership => ?_
  refine tame_bind (tame_listMake _ _ _) fun bindings => ?_
  refine tame_bind (tame_makeBinding _ _) fun binding => ?_
  refine tame_bind (tame_listAdd _ _) fun _ => ?_
  refine tame_update fun s => .pool _ _ ?_
  split
  · exact plainAttributes_nil
  · exact plainAttributes_one _ (by decide)

@[grind ←] theorem tame_makeSlots (ownership : Ownership) : Tame w (makeSlots ownership) := by
  iterate 6 refine tame_bind (tame_listMake _ _ _) fun _ => ?_
  exact tame_pure _

@[grind ←] theorem tame_buildMake (rule outputs ownership : Value) :
    Tame w (BuildId.make rule outputs ownership) := by
  refine tame_bind (tame_member _ _) fun ruleName => ?_
  refine tame_bind (tame_ofExcept (Value.granted_ownershipOf _)) fun ownership => ?_
  refine tame_bind (tame_makeSlots _) fun paths => ?_
  refine tame_bind (tame_listMake _ _ _) fun bindings => ?_
  refine tame_bind (tame_arguments _) fun texts => ?_
  refine tame_bind (tame_listExtend _ _) fun _ => ?_
  refine tame_update fun s => .build _ _ ?_
  split
  · exact plainAttributes_nil
  · exact plainAttributes_one _ (by decide)

@[grind ←] theorem tame_makeComment (text : Value) : Tame w (makeComment text) := by
  exact tame_bind (tame_ofExcept (Value.granted_toArgument _)) fun _ => tame_makeObject _

@[grind ←] theorem tame_makeDefaults (outputs : Value) : Tame w (makeDefaults outputs) := by
  exact tame_bind (tame_arguments _) fun _ => tame_makeObject _

@[grind ←] theorem tame_makeSubninja (path : Value) : Tame w (makeSubninja path) := by
  exact tame_bind (tame_ofExcept (Value.granted_toArgument _)) fun _ => tame_makeObject _

@[grind ←] theorem tame_makeInclusion (path : Value) : Tame w (makeInclusion path) := by
  exact tame_bind (tame_ofExcept (Value.granted_toArgument _)) fun _ => tame_makeObject _

@[grind ←] theorem tame_handleBuild (h : Handle) (outputs : Value) : Tame w (h.build outputs) := by
  refine tame_bind (tame_read _) fun _ => tame_bind (tame_member _ _) fun ownership => ?_
  refine tame_bind (tame_buildMake _ _ _) fun b => ?_
  exact tame_bind (tame_read _) fun _ => tame_insert _ _ _

@[grind ←] theorem tame_handleRule (h : Handle) (name command : Value) :
    Tame w (h.rule name command) := by
  refine tame_bind (tame_read _) fun _ => tame_bind (tame_member _ _) fun ownership => ?_
  refine tame_bind (tame_ruleMake _ _ _) fun r => ?_
  refine tame_bind (tame_usePool _ _) fun _ => ?_
  exact tame_bind (tame_read _) fun _ => tame_insert _ _ _

/-! ## Texts of values -/

/-- A printer that is tame, whatever it prints and how. -/
def Printer.Tame (p : Printer) : Prop := ∀ w manner v, Action.Tame w (p manner v)

section Printing

variable {p : Printer}

@[grind ←] theorem tame_say (hp : p.Tame) (v : Value) : Tame w (p.say v) := by
  rw [Printer.say.eq_def]
  split
  · exact tame_pure _
  · exact hp _ _ _

@[grind ←] theorem tame_display (hp : p.Tame) (v : Value) :
    Tame w (p.display v) := hp _ _ v

@[grind ←] theorem tame_sayMember (hp : p.Tame) (v : Value) (name : String) :
    Tame w (p.sayMember v name) := by
  exact tame_bind (tame_member _ _) fun _ => tame_say hp _

@[grind ←] theorem tame_showAll (hp : p.Tame) (items : List Value) :
    Tame w (p.showAll items) := by
  induction items with
  | nil => exact tame_pure []
  | cons v rest ih =>
      exact tame_bind (tame_display hp v) fun _ => tame_bind ih fun _ => tame_pure _

@[grind ←] theorem tame_showEntries (hp : p.Tame) (entries : List (Value × Value)) :
    Tame w (p.showEntries entries) := by
  induction entries with
  | nil => exact tame_pure []
  | cons entry rest ih =>
      refine tame_bind (tame_display hp entry.1) fun _ => ?_
      refine tame_bind (tame_display hp entry.2) fun _ => ?_
      exact tame_bind ih fun _ => tame_pure _

@[grind ←] theorem tame_showFields (hp : p.Tame) (v : Value) (names : List String) :
    Tame w (p.showFields v names) := by
  induction names with
  | nil => exact tame_pure []
  | cons name rest ih =>
      refine tame_bind ?_ fun _ => tame_bind ih fun _ => tame_pure _
      exact tame_bind (tame_member _ _) fun _ => tame_display hp _

@[grind ←] theorem tame_reportArguments (v : Value) : Tame w (Display.reportArguments v) := by
  refine tame_bind (tame_member _ _) fun arguments => ?_
  split <;> exact tame_pure _

@[grind ←] theorem tame_reportText (hp : p.Tame) (v : Value) :
    Tame w (Display.reportText p v) := by
  refine tame_bind (tame_reportArguments _) fun arguments => ?_
  split
  · exact tame_pure _
  · exact tame_say hp _
  · exact tame_display hp _

@[grind ←] theorem tame_listText (hp : p.Tame) (id : ListId) :
    Tame w (Display.listText p id) := by
  refine tame_bind (tame_listSnapshot _) fun items => ?_
  refine tame_bind (tame_showAll hp _) fun parts => ?_
  refine tame_bind (tame_member _ _) fun own => ?_
  exact tame_bind (tame_sayMember hp _ _) fun _ => tame_pure _

@[grind ←] theorem tame_handleText (hp : p.Tame) (h : Handle) :
    Tame w (Display.handleText p h) := by
  refine tame_bind (tame_read _) fun _ => tame_bind (tame_say hp _) fun index => ?_
  refine tame_bind (tame_statement _) fun _ => ?_
  exact tame_bind (tame_display hp _) fun _ => tame_pure _

theorem tame_objectText (hp : p.Tame) (o : Object) : Tame w (Display.objectText p o) := by
  rw [Display.objectText.eq_def]
  split
  · exact tame_listText hp _
  · exact tame_handleText hp _
  · refine tame_bind (tame_reportArguments _) fun arguments => ?_
    split
    · exact tame_bind (tame_display hp _) fun _ => tame_pure _
    · exact tame_bind (tame_display hp _) fun _ => tame_pure _
  · exact tame_read _
  · split
    · exact tame_bind (tame_showFields hp _ _) fun _ => tame_pure _
    · exact tame_pure _

theorem tame_shownText (hp : p.Tame) (v : Value) : Tame w (Display.text p v) := by
  rw [Display.text.eq_def]
  split <;> first | exact tame_pure _ | exact tame_objectText hp _ | grind

/-! ## Statements and files -/

@[grind ←] theorem tame_spread (v : Value) : Tame w v.spread := by
  rw [Value.spread]
  split
  · exact tame_fail rfl
  · exact tame_iterate v

@[grind ←] theorem tame_valueSnapshot (v : Value) : Tame w v.snapshot := by
  rw [Value.snapshot.eq_def]
  split <;> grind

theorem tame_blockLine (hp : p.Tame) (v : Value) : Tame w (p.blockLine v) := by
  refine tame_bind (tame_read _) fun stored => ?_
  split
  · exact tame_fail rfl
  · split <;> first
      | exact tame_pure _
      | exact tame_fail rfl
      | exact tame_bind (tame_say hp _) fun _ => tame_pure _

@[grind ←] theorem tame_block (hp : p.Tame) (v : Value) : Tame w (p.block v) := by
  refine tame_bind (tame_member _ _) fun bindings => ?_
  refine tame_bind (tame_iterate _) fun items => ?_
  induction items with
  | nil => exact tame_pure []
  | cons v rest ih =>
      exact tame_bind (tame_blockLine hp v) fun _ => tame_bind ih fun _ => tame_pure _

@[grind ←] theorem tame_ruleOf (hp : p.Tame) (v : Value) : Tame w (p.ruleOf v) := by
  refine tame_bind (tame_sayMember hp _ _) fun name => ?_
  exact tame_bind (tame_block hp _) fun _ => tame_pure _

@[grind ←] theorem tame_poolOf (hp : p.Tame) (v : Value) : Tame w (p.poolOf v) := by
  refine tame_bind (tame_member _ _) fun _ => tame_bind (tame_truth _) fun builtIn => ?_
  split
  · exact tame_pure _
  · refine tame_bind (tame_sayMember hp _ _) fun name => ?_
    exact tame_bind (tame_block hp _) fun _ => tame_pure _

@[grind ←] theorem tame_edgeOf (hp : p.Tame) (v : Value) : Tame w (p.edgeOf v) := by
  refine tame_bind (tame_member _ _) fun outputs => tame_bind (tame_spread _) fun _ => ?_
  refine tame_bind (tame_member _ _) fun implicitOutputs => tame_bind (tame_iterate _) fun _ => ?_
  refine tame_bind (tame_member _ _) fun ruleName => ?_
  refine tame_bind (tame_member _ _) fun inputs => tame_bind (tame_spread _) fun _ => ?_
  refine tame_bind (tame_member _ _) fun implicitInputs => tame_bind (tame_iterate _) fun _ => ?_
  refine tame_bind (tame_member _ _) fun orderOnlyInputs => tame_bind (tame_iterate _) fun _ => ?_
  refine tame_bind (tame_member _ _) fun validations => tame_bind (tame_iterate _) fun _ => ?_
  refine tame_bind (tame_ofExcept (Value.granted_paths _ _)) fun paths => ?_
  exact tame_bind (tame_block hp v) fun _ => tame_pure _

@[grind ←] theorem tame_defaultsOf (v : Value) : Tame w (Printer.defaultsOf v) := by
  refine tame_bind (tame_member _ _) fun _ => tame_bind (tame_spread _) fun outputs => ?_
  exact tame_bind (tame_ofExcept (Value.granted_checkWords _)) fun _ => tame_pure _

theorem tame_statementOf (hp : p.Tame) (k : Kind) (v : Value) : Tame w (p.statementOf k v) := by
  cases k with
  | binding => exact tame_bind (tame_blockLine hp v) fun _ => tame_pure _
  | rule => exact tame_ruleOf hp v
  | build => exact tame_edgeOf hp v
  | pool => exact tame_poolOf hp v
  | defaults => exact tame_defaultsOf v
  | comment | subninja | inclusion =>
      exact tame_bind (tame_sayMember hp _ _) fun _ => tame_pure _

@[grind ←] theorem tame_printed (hp : p.Tame) (v : Value) : Tame w (p.statement v) := by
  refine tame_bind (tame_member _ _) fun k => ?_
  split
  · exact tame_statementOf hp _ _
  · exact tame_bind (tame_say hp _) fun _ => tame_fail rfl

@[grind ←] theorem tame_printedAll (hp : p.Tame) (items : List Value) :
    Tame w (p.statements items) := by
  induction items with
  | nil => exact tame_pure []
  | cons v rest ih =>
      refine tame_bind (tame_member _ _) fun _ => ?_
      refine tame_bind (tame_member _ _) fun _ => ?_
      exact tame_bind (tame_printed hp v) fun _ => tame_bind ih fun _ => tame_pure _

@[grind ←] theorem tame_sayMark (hp : p.Tame) (mark : Value) (statements : List Statement) :
    Tame w (p.sayMark mark statements) := by
  rw [Printer.sayMark]
  split
  · exact tame_pure _
  · exact tame_say hp _

@[grind ←] theorem tame_lines (hp : p.Tame) (mark : Value) (statement : Statement) :
    Tame w (p.lines mark statement) := by
  exact tame_bind (tame_sayMark hp _ _) fun _ => tame_pure _

@[grind ←] theorem tame_fileText (hp : p.Tame) (mark : Value) (statements : List Statement) :
    Tame w (p.fileText mark statements) := by
  exact tame_bind (tame_sayMark hp _ _) fun _ => tame_pure _

theorem tame_nodeText (hp : p.Tame) {statement : Action Statement} (h : Tame w statement) :
    Tame w (p.nodeText statement) :=
  tame_bind h fun _ => tame_bind (tame_lines hp _ _) fun _ => tame_pure _

theorem tame_documentText (hp : p.Tame) (id : DocumentId) : Tame w (p.documentText id) := by
  refine tame_bind (tame_member _ _) fun _ => tame_bind (tame_valueSnapshot _) fun _ => ?_
  exact tame_bind (tame_printedAll hp _) fun _ => tame_fileText hp _ _

theorem tame_step (hp : p.Tame) : p.step.Tame := by
  intro w manner v
  rw [Printer.step.eq_def]
  split
  · exact tame_shownText hp v
  · split <;> first
      | exact tame_pure _
      | exact tame_reportText hp _
      | exact tame_documentText hp _
      | exact tame_nodeText hp (tame_ruleOf hp _)
      | exact tame_nodeText hp (tame_edgeOf hp _)
      | exact tame_nodeText hp (tame_poolOf hp _)
      | exact tame_shownText hp _

theorem tame_deep (depth : Nat) : (Printer.deep depth).Tame := by
  induction depth with
  | zero => exact fun _ _ _ => tame_fail rfl
  | succ depth ih => exact tame_step ih

end Printing

@[grind ←] theorem tame_printer : printer.Tame := tame_deep _

@[grind ←] theorem tame_shown (v : Value) : Tame w v.display := tame_display tame_printer v

@[grind ←] theorem tame_toText (v : Value) : Tame w v.toText := tame_say tame_printer v

/-! ## Settings -/

@[grind ←] theorem tame_askFor (given : Value) (key : String) (fallback : Value) :
    Tame w (Settings.askFor given key fallback) := by
  refine tame_bind (tame_holds _ _) fun has => ?_
  split
  · exact tame_item _ _ _
  · exact tame_pure _

@[grind ←] theorem tame_ask (given : Value) (defaults : List (String × Value)) :
    Tame w (Settings.ask given defaults) := by
  induction defaults with
  | nil => exact tame_pure []
  | cons entry rest ih =>
      exact tame_bind (tame_askFor _ _ _) fun _ => tame_bind ih fun _ => tame_pure _

@[grind ←] theorem tame_settings (given : Value) (defaults : List (String × Value)) :
    Tame w (Settings.ofValue given defaults) := by
  refine tame_bind (tame_truth given) fun some => ?_
  split
  · split
    · exact tame_pure _
    · exact tame_ask _ _
  · exact tame_pure _

@[grind ←] theorem tame_nameOf (v : Value) : Tame w (Logging.nameOf v) := by
  refine tame_bind (tame_truth v) fun some => ?_
  split
  · split
    · exact tame_pure _
    · exact tame_fail rfl
  · exact tame_pure _

@[grind ←] theorem tame_levelOf (v : Value) : Tame w (Logging.levelOf v) := by
  rw [Logging.levelOf.eq_def]
  split
  · exact tame_pure _
  · split
    · exact tame_pure _
    · exact tame_fail rfl
  · exact tame_bind (tame_shown _) fun _ => tame_fail rfl

@[grind ←] theorem tame_formatOf (v : Value) : Tame w (Logging.formatOf v) := by
  refine tame_bind (tame_truth v) fun some => ?_
  split
  · split
    · split
      · exact tame_pure _
      · exact tame_fail rfl
    · exact tame_fail rfl
  · exact tame_pure _

@[grind ←] theorem tame_viewMake (name : String) (enabled threshold : Value) :
    Tame w (View.make name enabled threshold) := by
  unfold View.make
  refine tame_bind (tame_logWrite _) fun _ => ?_
  refine tame_update fun s => Effect.serial _ fun arena hmem => ?_
  rcases List.mem_append.mp hmem with h | h
  · split at h <;> simp at h
  · split at h <;> simp at h

@[grind ←] theorem tame_lowerLevel (name : String) (level : Value) :
    Tame w (View.lowerLevel name level) := by
  refine tame_bind (tame_read _) fun own => ?_
  refine tame_bind (tame_ofExcept (View.granted_showsLess _ _)) fun lowers => ?_
  split
  · exact tame_bind (tame_levelOf _) fun _ => tame_logWrite _
  · exact tame_pure _

@[grind ←] theorem tame_bringHandler (name : String) (format : Value) :
    Tame w (View.bringHandler name format) := by
  refine tame_bind (tame_read _) fun has => ?_
  split
  · exact tame_pure _
  · exact tame_bind (tame_formatOf _) fun _ => tame_logWrite _

@[grind ←] theorem tame_viewOfSettings (settings : List (String × Value)) :
    Tame w (View.ofSettings settings) := by
  grind [View.ofSettings]

/-! ## Documents -/

section Documents

variable (id : DocumentId)

@[grind ←] theorem tame_place_of_document : Tame w id.statements := tame_member _ _

@[grind ←] theorem tame_documentInsert (expected : Expected) (v : Value) :
    Tame w (id.insert expected v) := by
  exact tame_bind (tame_place_of_document id) fun _ => tame_insert _ _ _

@[grind ←] theorem tame_addRule (v : Value) : Tame w (id.addRule v) := tame_documentInsert _ _ _

@[grind ←] theorem tame_addBuild (v : Value) : Tame w (id.addBuild v) := tame_documentInsert _ _ _

@[grind ←] theorem tame_addPool (v : Value) : Tame w (id.addPool v) := tame_documentInsert _ _ _

@[grind ←] theorem tame_rule (name command : Value) : Tame w (id.rule name command) := by
  exact tame_bind (tame_ruleMake _ _ _) fun _ => tame_addRule id _

@[grind ←] theorem tame_phony (outputs : Value) : Tame w (id.phony outputs) := by
  refine tame_bind (tame_member _ _) fun rule => ?_
  exact tame_bind (tame_buildMake _ _ _) fun _ => tame_addBuild id _

@[grind ←] theorem tame_pool (name depth : Value) : Tame w (id.pool name depth) := by
  exact tame_bind (tame_poolMake _ _ _ _) fun _ => tame_addPool id _

@[grind ←] theorem tame_documentAdd (v : Value) : Tame w (id.add v) := by
  refine tame_bind (tame_place_of_document id) fun _ => ?_
  exact tame_bind (tame_valueAppend _ _) fun _ => tame_pure _

@[grind ←] theorem tame_comment (text : Value) : Tame w (id.comment text) := by
  exact tame_bind (tame_makeComment _) fun _ => tame_documentAdd id _

@[grind ←] theorem tame_binding (name value : Value) : Tame w (id.binding name value) := by
  exact tame_bind (tame_makeBinding _ _) fun _ => tame_documentAdd id _

@[grind ←] theorem tame_defaults (outputs : Value) : Tame w (id.defaults outputs) := by
  exact tame_bind (tame_makeDefaults _) fun _ => tame_documentAdd id _

@[grind ←] theorem tame_subninja (path : Value) : Tame w (id.subninja path) := by
  exact tame_bind (tame_makeSubninja _) fun _ => tame_documentAdd id _

@[grind ←] theorem tame_inclusion (path : Value) : Tame w (id.inclusion path) := by
  exact tame_bind (tame_makeInclusion _) fun _ => tame_documentAdd id _

@[grind ←] theorem tame_render : Tame w id.render := tame_toText _

@[grind ←] theorem tame_write (path : Value) : Tame true (id.write path) := by
  refine tame_bind (tame_ofExcept (Value.granted_toPath _)) fun path => ?_
  refine tame_bind (tame_render id) fun output => ?_
  refine tame_unwrap (tame_update fun s => ?_) (gives_update fun s => granted_saveText s _ _)
    fun _ => ?_
  · rw [saveText]
    split
    · exact .same
    · exact .files rfl _
  · grind

end Documents

/-! ## Building documents -/

namespace Builder

variable (b : Builder) (d : DocumentId)

@[grind ←] theorem tame_attachBindings (h : Handle) (bindings : List Binding) :
    Tame w (attachBindings h bindings) := tame_attach _ _

@[grind ←] theorem tame_attachDyndep (h : Handle) (file : Option String) :
    Tame w (attachDyndep h file) := by
  cases file with
  | none => exact tame_pure ()
  | some file => exact tame_attach _ _

@[grind ←] theorem tame_configure (h : Handle) (plan : Manifest.BuildPlan) :
    Tame w (b.configure h plan) := by
  iterate 5 refine tame_bind (tame_addPaths _ _ _) fun _ => ?_
  exact tame_bind (tame_attachDyndep _ _) fun _ => tame_attachBindings _ _

@[grind ←] theorem tame_addBuilds (rule : Handle) (plans : List Manifest.BuildPlan) :
    Tame w (b.addBuilds rule plans) := by
  induction plans with
  | nil => exact tame_pure ()
  | cons plan rest ih =>
      refine tame_bind (tame_handleBuild _ _) fun h => ?_
      exact tame_bind (tame_configure b h plan) fun _ => ih

@[grind ←] theorem tame_joinPool (h : Handle) (position : Nat) (name : String)
    (pool : Option String) : Tame w (b.joinPool h position name pool) := by
  cases pool with
  | none => exact tame_pure ()
  | some poolName =>
      rw [joinPool]
      split
      · exact tame_fail rfl
      · exact tame_usePool _ _

@[grind ←] theorem tame_builderRule (position : Nat) (name command : String)
    (pool : Option String) (bindings : List Binding) :
    Tame w (b.addRule d position name command pool bindings) := by
  refine tame_bind (tame_rule _ _ _) fun h => ?_
  refine tame_bind (tame_joinPool _ _ _ _ _) fun _ => ?_
  exact tame_bind (tame_attachBindings _ _) fun _ => tame_pure h

@[grind ←] theorem tame_builderBuild (position : Nat) (plan : Manifest.BuildPlan)
    (rule : String) : Tame w (b.addBuild d position plan rule) := by
  rw [addBuild]
  split
  · exact tame_bind (tame_phony _ _) fun h => tame_configure b h plan
  · split
    · exact tame_fail rfl
    · exact tame_bind (tame_handleBuild _ _) fun h => tame_configure b h plan

@[grind ←] theorem tame_builderPool (name : String) (depth : Nat) (bindings : List Binding) :
    Tame w (addPool d name depth bindings) := by
  refine tame_bind (tame_pool _ _ _) fun h => ?_
  exact tame_bind (tame_attachBindings _ _) fun _ => tame_pure h

@[grind ←] theorem tame_add (position : Nat) (declaration : Manifest.Declaration) :
    Tame w (b.add d position declaration) := by
  cases declaration with
  | rule name command pool bindings builds =>
      refine tame_bind (tame_attempt (tame_builderRule _ _ _ _ _ _ _)) fun r => ?_
      cases r with
      | error fault => exact tame_pure _
      | ok h => exact tame_bind (tame_attempt (tame_addBuilds _ _ _)) fun _ => tame_pure _
  | pool name depth bindings =>
      refine tame_bind (tame_attempt (tame_builderPool _ _ _ _)) fun r => ?_
      cases r <;> exact tame_pure _
  | build | phony | binding | comment | defaults | subninja | inclusion | foreign =>
      grind [Builder.add]

@[grind ←] theorem tame_addAll (position : Nat) (declarations : List Manifest.Declaration) :
    Tame w (b.addAll d position declarations) := by
  induction declarations generalizing b position with
  | nil => exact tame_pure _
  | cons declaration rest ih =>
      refine tame_bind (tame_add b d position declaration) fun r => ?_
      obtain ⟨after, outcome⟩ := r
      cases outcome with
      | error fault => exact tame_pure _
      | ok done => exact ih after (position + 1)

end Builder

end NinjaFile
