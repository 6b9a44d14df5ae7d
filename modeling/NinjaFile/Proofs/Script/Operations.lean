import NinjaFile.Proofs.Store.Tame
import NinjaFile.Script.Interpreter

/-!
# Public operations

Everything that callers can do, apart from assigning attributes: making objects, calling
methods, asking for attributes, comparing and iterating values, holding guards, building
documents of manifests.  Insertions that give a handle are among the methods; they are
also listed by themselves, with arguments of the class that each of them is for.
-/

namespace NinjaFile.Script

/-! ## Insertions that give a handle -/

inductive Insertion where
  | rule (d : DocumentId) (name command : Value)
  | addRule (d : DocumentId) (r : RuleId)
  | phony (d : DocumentId) (outputs : Value)
  | addBuild (d : DocumentId) (b : BuildId)
  | pool (d : DocumentId) (name depth : Value)
  | addPool (d : DocumentId) (p : PoolId)
  /-- A build with the rule of a handle. -/
  | buildBy (h : Handle) (outputs : Value)
  /-- A rule in the pool of a handle. -/
  | ruleBy (h : Handle) (name command : Value)

namespace Insertion

def program : Insertion → Action Handle
  | .rule d name command => d.rule name command
  | .addRule d r => d.addRule (.object (.rule r))
  | .phony d outputs => d.phony outputs
  | .addBuild d b => d.addBuild (.object (.build b))
  | .pool d name depth => d.pool name depth
  | .addPool d p => d.addPool (.object (.pool p))
  | .buildBy h outputs => h.build outputs
  | .ruleBy h name command => h.rule name command

/-- Whose method an insertion is, its name, and its arguments. -/
def owner : Insertion → Object
  | .rule d .. | .addRule d _ | .phony d _ | .addBuild d _ | .pool d .. | .addPool d _ =>
      .document d
  | .buildBy h _ => .handle h
  | .ruleBy h .. => .handle h

def methodName : Insertion → String
  | .rule .. => "rule"
  | .addRule .. => "add_rule"
  | .phony .. => "phony"
  | .addBuild .. => "add_build"
  | .pool .. => "pool"
  | .addPool .. => "add_pool"
  | .buildBy .. => "build"
  | .ruleBy .. => "rule"

def arguments : Insertion → List Value
  | .rule _ name command => [name, command]
  | .addRule _ r => [.object (.rule r)]
  | .phony _ outputs => [outputs]
  | .addBuild _ b => [.object (.build b)]
  | .pool _ name depth => [name, depth]
  | .addPool _ p => [.object (.pool p)]
  | .buildBy _ outputs => [outputs]
  | .ruleBy _ name command => [name, command]

/-- The method belongs to handles of one kind only. -/
def fits : Insertion → Bool
  | .buildBy h _ => h.expected = .rule
  | .ruleBy h .. => h.expected = .pool
  | _ => true

theorem exists_method (i : Insertion) (h : i.fits) :
    ∃ m ∈ methodsOf (.object i.owner), m.name = i.methodName ∧
      m.run i.arguments = handleOf i.program := by
  cases i with
  | buildBy g outputs =>
      obtain ⟨serial, expected, arena, index⟩ := g
      obtain rfl : expected = .rule := by simpa [fits] using h
      exact ⟨_, List.mem_append_left _ (.head _), rfl, rfl⟩
  | ruleBy g name command =>
      obtain ⟨serial, expected, arena, index⟩ := g
      obtain rfl : expected = .pool := by simpa [fits] using h
      exact ⟨_, List.mem_append_left _ (.head _), rfl, rfl⟩
  | rule d name command => exact ⟨_, .head _, rfl, rfl⟩
  | addRule d r => exact ⟨_, .tail _ (.head _), rfl, rfl⟩
  | phony d outputs => exact ⟨_, .tail _ (.tail _ (.head _)), rfl, rfl⟩
  | addBuild d b => exact ⟨_, .tail _ (.tail _ (.tail _ (.head _))), rfl, rfl⟩
  | pool d name depth => exact ⟨_, .tail _ (.tail _ (.tail _ (.tail _ (.head _)))), rfl, rfl⟩
  | addPool d p =>
      exact ⟨_, .tail _ (.tail _ (.tail _ (.tail _ (.tail _ (.head _))))), rfl, rfl⟩

end Insertion

/-! ## Operations -/

inductive Operation where
  | make (c : Class) (args : List Value) (named : List (String × Value))
  | call (v : Value) (m : Method) (args : List Value) (named : List (String × Value))
  | get (v : Value) (name : String)
  | compare (a b : Value)
  | ordinal (v : Value)
  | iterate (v : Value)
  | load (path : String)
  /-- A lazy source of values. -/
  | source (items : List Value) (raises : Option String)
  /-- Enters a guard and leaves it some time later. -/
  | hold (lock : LockId) (mode : Mode)
  /-- Builds a document of a manifest. -/
  | build (b : Builder)
  | insert (i : Insertion)

namespace Operation

def makeSource (items : List Value) (raises : Option String) : Action Value :=
  .update fun s =>
    let (id, s) := s.insertSource ⟨items, .ready, raises⟩
    (.source id, s)

def buildDocument (b : Builder) : Action Value := do
  let (_, outcome) ← b.build
  return (← Program.ofExcept outcome).toValue

def program : Operation → Action Value
  | .make c args named => c.make args named
  | .call v m args named => invoke v m args named
  | .get v name => memberOf v name
  | .compare a b => comparison a b
  | .ordinal v => ordinalOf v
  | .iterate v => itemsOf v
  | .load path => fileContent path
  | .source items raises => makeSource items raises
  | .hold lock mode => .guarded lock mode (return .null)
  | .build b => buildDocument b
  | .insert i => handleOf i.program

end Operation

/-! ## Operations are tame -/

open Action Store

/-- A method that is tame, whatever it is called with. -/
def Callable.Tame (m : Callable) : Prop := ∀ args, Action.Tame true (m.run args)

theorem tame_call {m : Callable} (h : m.Tame) (args : List Value)
    (named : List (String × Value)) : Tame true (m.call args named) :=
  tame_bind (tame_ofExcept (m.granted_bind args named)) fun args => h args

theorem tame_binary {run : Value → Value → Action Value} (owner name first second : String)
    (h : ∀ v w, Tame true (run v w)) : (Callable.binary owner name first second run).Tame :=
  fun _ => h _ _

section Objects

theorem tame_makeGuard {guard : Guard} (free : guard.Free) {attributes : List (String × Value)}
    (h : PlainAttributes attributes) : Tame true (makeGuard guard attributes) :=
  tame_update fun _ => .guard guard free attributes h

theorem tame_makeLock (blocking : Value) : Tame true (makeLock blocking) := by
  refine tame_makeGuard (Guard.free_ofOwnership .shared _) ?_
  split
  · exact plainAttributes_nil
  · exact plainAttributes_cons (.inl (by decide)) plainAttributes_nil

theorem tame_guardFor (ownership : Ownership) (blocking : Value) :
    Tame true (guardFor ownership blocking) := by
  cases ownership with
  | single => exact tame_makeGuard (Guard.free_ofOwnership .single false) plainAttributes_nil
  | shared => exact tame_makeLock _

theorem tame_makeArena (ownership logger : Value) : Tame true (makeArena ownership logger) := by
  refine tame_bind (tame_truth _) fun hasLogger => ?_
  refine tame_bind (tame_ofExcept (Value.granted_ownershipOf _)) fun ownership => ?_
  split
  · exact tame_bind (tame_arenaMake _ _) fun _ => tame_pure _
  · refine tame_update fun s => Effect.arena (.make ownership true []) (Guard.free_ofOwnership ..) _ ?_
    split
    · exact plainAttributes_cons (.inl (by decide)) plainAttributes_nil
    · exact plainAttributes_nil

theorem tame_makeFormatter (indent : Value) : Tame true (makeFormatter indent) := by
  refine tame_update fun s => Effect.serial _ ?_
  split
  · exact plainAttributes_nil
  · exact plainAttributes_cons (.inl (by decide)) plainAttributes_nil

theorem tame_makeReport (r : Report) (arguments : List Value)
    {attributes : List (String × Value)} (h : PlainAttributes attributes) :
    Tame true (makeReport r arguments attributes) :=
  tame_update fun _ => .serial _ (plainAttributes_cons (.inl (by decide)) h)

theorem tame_makeManifestReport (message position : Value) :
    Tame true (makeManifestReport message position) := by
  have report (v : Value) : Tame true (makeReport .manifest [v] [("position", position)]) :=
    tame_makeReport _ _ (plainAttributes_cons (.inl (by decide)) plainAttributes_nil)
  unfold makeManifestReport
  split
  · exact tame_bind (tame_pure _) fun v => report v
  · refine tame_bind (tame_toText _) fun text => tame_bind (tame_toText _) fun shown => ?_
    exact tame_bind (tame_pure _) fun v => report v

theorem tame_makeBorrowReport (message mode : Value) : Tame true (makeBorrowReport message mode) := by
  refine tame_bind (tame_toText _) fun text => tame_bind (tame_toText _) fun shown => ?_
  exact tame_makeReport _ _ (plainAttributes_cons (.inl (by decide)) plainAttributes_nil)

theorem tame_makeKindReport (expected actual index : Value) :
    Tame true (makeKindReport expected actual index) := by
  refine tame_bind (tame_toText _) fun text => tame_bind (tame_toText _) fun shown => ?_
  refine tame_makeReport _ _ (plainAttributes_cons (.inl (by decide)) ?_)
  refine plainAttributes_cons (.inl (by decide)) ?_
  exact plainAttributes_cons (.inl (by decide)) plainAttributes_nil

theorem tame_makeList (items ownership blocking : Value) :
    Tame true (makeList items ownership blocking) := by
  grind [makeList]

theorem tame_construct {c : Class} (hc : c ≠ .document) (args : List Value) :
    Tame true (c.construct args) := by
  rw [Class.construct.eq_def]
  split
  · contradiction
  · exact tame_bind (tame_ruleMake _ _ _) fun _ => tame_pure _
  · exact tame_bind (tame_buildMake _ _ _) fun _ => tame_pure _
  · exact tame_bind (tame_poolMake _ _ _ _) fun _ => tame_pure _
  · exact tame_makeComment _
  · exact tame_makeDefaults _
  · exact tame_makeSubninja _
  · exact tame_makeInclusion _
  · exact tame_makeBinding _ _
  · exact tame_makeList _ _ _
  · exact tame_makeArena _ _
  · exact tame_bind (tame_handleMake _ _ _) fun _ => tame_pure _
  · exact tame_makeGuard (Guard.free_ofOwnership .single false) plainAttributes_nil
  · exact tame_makeLock _
  · exact tame_makeFormatter _
  · exact tame_makeObject _
  · exact tame_makeManifestReport _ _
  · exact tame_makeBorrowReport _ _
  · exact tame_makeKindReport _ _ _
  · exact tame_fail rfl

theorem tame_make {c : Class} (hc : c ≠ .document) (args : List Value)
    (named : List (String × Value)) : Tame true (c.make args named) := by
  have called : Tame true (c.callable.call args named) :=
    tame_call (m := c.callable) (tame_construct hc) args named
  rw [Class.make.eq_def]
  split
  · split
    · exact called
    · exact tame_fail rfl
  · exact called

end Objects

section Methods

/-- Methods that are all tame. -/
def AllTame (methods : List Callable) : Prop := ∀ m ∈ methods, m.Tame

theorem allTame_nil : AllTame [] := fun _ hm => absurd hm List.not_mem_nil

theorem allTame_cons {m : Callable} {methods : List Callable} :
    AllTame (m :: methods) ↔ m.Tame ∧ AllTame methods := List.forall_mem_cons

theorem allTame_append {first second : List Callable} :
    AllTame (first ++ second) ↔ AllTame first ∧ AllTame second := List.forall_mem_append

theorem tame_chained {o : Object} {action : Action Unit} (h : Tame true action) :
    Tame true (chained o action) :=
  tame_bind h fun _ => tame_pure _

theorem tame_handleOf {action : Action Handle} (h : Tame true action) : Tame true (handleOf action) :=
  tame_bind h fun _ => tame_pure _

private theorem tame_attachmentMethods (o : Object) :
    AllTame (attachmentMethods o) := by
  have forAny (r : Receiver) : AllTame (variablesMethods o r) := by
    simp only [variablesMethods, allTame_cons, allTame_nil, and_true]
    exact tame_binary _ _ _ _ fun _ _ => tame_chained (tame_attach _ _)
  have forRule (r : Receiver) : AllTame (ruleVariablesMethods o r) := by
    simp only [ruleVariablesMethods, allTame_cons, allTame_nil, and_true]
    refine ⟨?_, ?_, ?_, ?_, ?_, ?_, ?_, ?_, ?_, ?_, ?_⟩ <;> first
      | exact fun _ => tame_chained (tame_attach _ _)
      | exact fun _ => tame_chained (tame_usePool _ _)
  have forBuild (r : Receiver) : AllTame (buildVariablesMethods o r) := by
    simp only [buildVariablesMethods, allTame_cons, allTame_nil, and_true]
    refine ⟨?_, ?_, ?_, ?_, ?_, ?_⟩ <;> first
      | exact fun _ => tame_chained (tame_addPaths _ _ _)
      | exact fun _ => tame_chained (tame_attach _ _)
  rw [attachmentMethods]
  split
  · exact forAny _
  · exact allTame_append.mpr ⟨forRule _, forAny _⟩
  · exact allTame_append.mpr
      ⟨allTame_append.mpr ⟨forBuild _, forRule _⟩, forAny _⟩
  · exact allTame_nil

private theorem tame_sequenceMethods (v : Value) : AllTame (sequenceMethods v) := by
  simp only [sequenceMethods, allTame_cons, allTame_nil, and_true]
  refine ⟨fun _ => ?_, fun _ => ?_, fun args => ?_⟩
  · exact tame_bind (tame_iterate v) fun _ => tame_pure _
  · exact tame_bind (tame_length v) fun _ => tame_pure _
  · change Tame true (itemOf v _)
    rw [itemOf.eq_def]
    split
    · exact tame_bind (tame_shown _) fun _ => tame_item _ _ _
    · exact tame_item _ _ _

private theorem tame_snapshotMethod (v : Value) : (snapshotMethod v).Tame :=
  fun _ => tame_bind (tame_valueSnapshot v) fun _ => tame_pure _

private theorem tame_truthMethod (v : Value) : (truthMethod v).Tame :=
  fun _ => tame_bind (tame_truth v) fun _ => tame_pure _

private theorem tame_listMethods (id : ListId) : AllTame (listMethods id) := by
  refine allTame_append.mpr ⟨?_, tame_sequenceMethods _⟩
  simp only [allTame_cons, allTame_nil, and_true]
  refine ⟨fun _ => ?_, fun _ => ?_, fun _ => tame_valueAdopt (.object (.list id)) _, tame_snapshotMethod _,
    tame_truthMethod _⟩
  · exact tame_bind (tame_listAdd _ _) fun _ => tame_pure _
  · refine tame_bind (tame_iterate _) fun items => ?_
    exact tame_bind (tame_listExtend _ _) fun _ => tame_pure _

private theorem tame_arenaMethods (arena : Arena) : AllTame (arenaMethods arena) := by
  refine allTame_append.mpr ⟨?_, tame_sequenceMethods _⟩
  simp only [allTame_cons, allTame_nil, and_true]
  refine ⟨fun _ => ?_, tame_snapshotMethod _⟩
  exact tame_bind (tame_arenaAppend _ _) fun _ => tame_pure _

private theorem tame_documentMethods (id : DocumentId) : AllTame (documentMethods id) := by
  refine allTame_append.mpr ⟨?_, ?_⟩
  · simp only [allTame_cons, allTame_nil, and_true]
    refine ⟨fun _ => ?_, fun _ => ?_, fun _ => ?_, fun _ => ?_, fun _ => ?_, fun _ => ?_,
      fun _ => ?_, fun _ => ?_⟩
    · exact tame_handleOf (tame_rule _ _ _)
    · exact tame_handleOf (tame_addRule _ _)
    · exact tame_handleOf (tame_phony _ _)
    · exact tame_handleOf (tame_addBuild _ _)
    · exact tame_handleOf (tame_pool _ _ _)
    · exact tame_handleOf (tame_addPool _ _)
    · exact tame_bind (tame_render _) fun _ => tame_pure _
    · exact tame_bind (tame_write _ _) fun _ => tame_pure _
  · simp only [insertionMethods, allTame_cons, allTame_nil, and_true]
    refine ⟨fun _ => ?_, fun _ => ?_, fun _ => ?_, fun _ => ?_, fun _ => ?_⟩
    · exact tame_chained (tame_comment _ _)
    · exact tame_chained (tame_binding _ _ _)
    · exact tame_chained (tame_defaults _ _)
    · exact tame_chained (tame_subninja _ _)
    · exact tame_chained (tame_inclusion _ _)

private theorem tame_addTo (v document : Value) {add : DocumentId → Value → Action Handle}
    (h : ∀ d, Tame true (add d v)) (name : String) : Tame true (addTo v document add name) := by
  rw [addTo.eq_def]
  split
  · exact tame_handleOf (h _)
  · exact tame_fail rfl

private theorem tame_nodeMethods (node : Node) : AllTame (nodeMethods node) := by
  have adopted (ownership : Value) :
      Tame true (do
        node.adopt ownership
        return Value.null) := tame_bind (tame_adopt _ _) fun _ => tame_pure _
  have rendered : Tame true (do return Value.text (← node.render)) :=
    tame_bind (tame_toText _) fun _ => tame_pure _
  cases node <;>
    simp only [nodeMethods, allTame_cons, allTame_nil, and_true]
  · exact ⟨fun _ => tame_addTo _ _ (fun d => tame_addRule d _) _, fun _ => adopted _,
      fun _ => rendered⟩
  · exact ⟨fun _ => adopted _, fun _ => rendered⟩
  · exact ⟨fun _ => tame_addTo _ _ (fun d => tame_addPool d _) _, fun _ => adopted _,
      fun _ => rendered⟩

private theorem tame_handleMethods (h : Handle) : AllTame (handleMethods h) := by
  have added (v : Value) :
      Tame true (do return Value.int (← (← h.statements).append v)) := by
    refine tame_bind (tame_handleStatements h) fun place => ?_
    exact tame_bind (tame_valueAppend _ _) fun _ => tame_pure _
  rw [handleMethods.eq_def]
  split <;> simp only [allTame_cons, allTame_nil, and_true]
  · exact ⟨fun _ => tame_handleOf (tame_handleBuild _ _), fun _ => added _⟩
  · exact ⟨fun _ => tame_handleOf (tame_handleRule _ _ _), fun _ => added _⟩
  · exact fun _ => added _

private theorem tame_formatterMethods (formatter : Value) :
    AllTame (Formatter.methods formatter) := by
  have lines {statement : Action Statement} (h : Tame true statement) :
      Tame true (Formatter.linesOf formatter statement) := by
    refine tame_bind h fun _ => tame_bind (tame_member _ _) fun mark => ?_
    exact tame_bind (tame_lines tame_printer _ _) fun _ => tame_pure _
  simp only [Formatter.methods, allTame_cons, allTame_nil, and_true]
  refine ⟨fun _ => ?_, fun _ => lines (tame_printed tame_printer _),
    fun _ => lines (tame_ruleOf tame_printer _), fun _ => lines (tame_poolOf tame_printer _),
    fun _ => lines (tame_edgeOf tame_printer _)⟩
  refine tame_bind ?_ fun statements => tame_bind (tame_member _ _) fun mark => ?_
  · rw [Formatter.statementsOf.eq_def]
    split
    · refine tame_unwrap (tame_takeItems _) (gives_takeItems _) fun items => ?_
      refine tame_bind (tame_printedAll tame_printer _) fun _ => ?_
      exact tame_bind (tame_close _) fun _ => tame_pure _
    · exact tame_bind (tame_iterate _) fun items => tame_printedAll tame_printer items
  · exact tame_bind (tame_fileText tame_printer _ _) fun _ => tame_pure _

private theorem tame_viewMethods (view : View) : AllTame (viewMethods view) := by
  have logged (level message : Value) : Tame true (logMethod view level message) := by
    refine tame_bind (tame_toText _) fun text => ?_
    exact tame_bind (tame_logAt _ _ _) fun _ => tame_pure _
  simp only [viewMethods, allTame_cons, allTame_nil, and_true]
  refine ⟨fun _ => ?_, fun _ => logged _ _, fun _ => logged _ _, fun _ => logged _ _,
    fun _ => logged _ _, fun _ => logged _ _, fun _ => logged _ _⟩
  change Tame true (admission view _)
  refine tame_bind (tame_read _) fun switch => tame_bind (tame_truth _) fun on => ?_
  split
  · exact tame_bind (tame_admits _ _) fun _ => tame_pure _
  · exact tame_pure _

/-- No method of anything does more than the known effects. -/
theorem tame_methods (v : Value) : AllTame (methodsOf v) := by
  rw [methodsOf.eq_def]
  split
  · refine allTame_append.mpr ⟨?_, tame_attachmentMethods _⟩
    rw [ownMethods.eq_def]
    split
    · exact tame_listMethods _
    · exact tame_arenaMethods _
    · exact tame_documentMethods _
    · exact tame_nodeMethods _
    · exact tame_nodeMethods _
    · exact tame_nodeMethods _
    · exact allTame_cons.mpr ⟨fun _ => tame_pure _, allTame_nil⟩
    · exact tame_handleMethods _
    · exact tame_formatterMethods _
    · exact tame_viewMethods _
    · exact allTame_nil
  · exact allTame_cons.mpr ⟨fun _ => tame_guardFor _ _, allTame_nil⟩
  · exact allTame_cons.mpr ⟨tame_truthMethod _, allTame_nil⟩
  · exact allTame_cons.mpr ⟨tame_truthMethod _, allTame_nil⟩
  · exact allTame_cons.mpr ⟨tame_truthMethod _, allTame_nil⟩
  · exact allTame_cons.mpr ⟨tame_truthMethod _, allTame_nil⟩
  · exact allTame_cons.mpr ⟨tame_truthMethod _, tame_sequenceMethods _⟩
  · exact tame_sequenceMethods _
  · exact tame_sequenceMethods _
  · exact tame_sequenceMethods _
  · exact tame_sequenceMethods _
  · exact tame_sequenceMethods _
  · exact tame_sequenceMethods _
  · refine allTame_cons.mpr ⟨fun _ => ?_, allTame_nil⟩
    exact tame_bind (tame_iterate _) fun _ => tame_pure _
  · exact allTame_nil

theorem tame_methodNamed (v : Value) (name : String) : Tame true (methodNamed? v name) := tame_read _

theorem tame_callNamed (v : Value) (name : String) (args : List Value)
    (named : List (String × Value)) : Tame true (callNamed v name args named) := by
  refine tame_read_bind fun s => ?_
  change Tame true (match (if _ then none else (methodsOf v).find? fun m => m.name == name) with
    | some (m : Callable) => m.call args named
    | none => v.member name >>= fun w => .fail (.notCallable w.typeName))
  split
  · next m hm =>
      refine tame_call ?_ args named
      split at hm
      · cases hm
      · exact tame_methods v m (List.mem_of_find?_eq_some hm)
  · exact tame_bind (tame_member _ _) fun _ => tame_fail rfl

theorem tame_invoke (v : Value) (m : Method) (args : List Value)
    (named : List (String × Value)) : Tame true (invoke v m args named) := by
  cases m with
  | display => exact tame_bind (tame_shown v) fun _ => tame_pure _
  | text => exact tame_bind (tame_toText v) fun _ => tame_pure _
  | iterate | length | item | truth | named => exact tame_callNamed _ _ _ _

theorem tame_memberOf (v : Value) (name : String) : Tame true (memberOf v name) := by
  refine tame_bind (tame_methodNamed _ _) fun m => ?_
  split
  · refine tame_bind (tame_update fun s => ?_) fun _ => tame_pure _
    exact Effect.serial [] plainAttributes_nil
  · exact tame_member _ _

end Methods

namespace Operation

/-- An operation that makes a document. -/
def makesDocument : Operation → Bool
  | .make .document .. | .build _ => true
  | _ => false

/-- All operations but those that make documents are tame. -/
theorem tame_program {op : Operation} (h : op.makesDocument = false) : Tame true op.program := by
  cases op with
  | make c args named =>
      refine tame_make ?_ args named
      rintro rfl
      cases h
  | call v m args named => exact tame_invoke v m args named
  | get v name => exact tame_memberOf v name
  | compare a b =>
      refine tame_bind (tame_read _) fun same => ?_
      dsimp only
      split
      · refine tame_bind (tame_read _) fun unhashable => ?_
        split
        · exact tame_fail rfl
        · exact tame_pure _
      · exact tame_pure _
  | ordinal v => exact tame_bind (tame_member _ _) fun _ => tame_member _ _
  | iterate v => exact tame_bind (tame_iterate v) fun _ => tame_pure _
  | load path =>
      refine tame_unwrap (tame_read _) (gives_read fun s => granted_fileBytes s _) fun _ => ?_
      exact tame_bind (tame_ofExcept (Value.granted_decodeBytes _)) fun _ => tame_pure _
  | source items raises => exact tame_update fun _ => .newSource _
  | hold lock mode => exact tame_guarded _ _ trivial (granted_ok _)
  | build b => cases h
  | insert i =>
      refine tame_handleOf ?_
      cases i with
      | rule => exact tame_rule _ _ _
      | addRule => exact tame_addRule _ _
      | phony => exact tame_phony _ _
      | addBuild => exact tame_addBuild _ _
      | pool => exact tame_pool _ _ _
      | addPool => exact tame_addPool _ _
      | buildBy => exact tame_handleBuild _ _
      | ruleBy => exact tame_handleRule _ _ _

end Operation

end NinjaFile.Script
