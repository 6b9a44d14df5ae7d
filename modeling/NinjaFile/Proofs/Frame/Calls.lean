import NinjaFile.Proofs.Frame.Building
import NinjaFile.Proofs.Script.Operations

/-!
# Calls that keep homes

What callers can do with documents and statements, with things that are there and
configurations of the right types.  Values that become texts may be anything.
-/

namespace NinjaFile

open Store Program Script

namespace Housing

inductive Call where
  /-- No configuration is one without entries. -/
  | document (config : List (Value × Value))
  /-- A document of a manifest. -/
  | build (b : Builder)
  | makeRule (name command ownership : Value)
  | makeBuild (rule outputs ownership : Value)
  | makePool (name depth ownership : Value) (builtIn : Bool)
  | insert (i : Insertion)
  | comment (d : DocumentId) (text : Value)
  | binding (d : DocumentId) (name value : Value)
  | defaults (d : DocumentId) (outputs : Value)
  | subninja (d : DocumentId) (path : Value)
  | inclusion (d : DocumentId) (path : Value)
  /-- A statement goes right into the list of a document, or of what a handle leads into. -/
  | append (d : DocumentId) (v : Value)
  | appendBy (h : Handle) (v : Value)
  | attach (r : Receiver) (a : Attacher)
  /-- Items go right into a list of a statement. -/
  | extend (n : Node) (q : Part) (items : List Value)
  | adopt (n : Node) (ownership : Value)
  /-- Anything that changes no statement and no list, such as making sources. -/
  | look (p : Action Value)

/-- Looks up the list of a statement and puts items into it. -/
def extendPart (n : Node) (q : Part) (items : List Value) : Action Unit := do
  (← Program.ofExcept (← (Receiver.node n).part q).toExtend).extend items

namespace Call

def program : Call → Action Value
  | .document config => do return .object (.document (← DocumentId.make (.mapping config)))
  | .build b => Operation.buildDocument b
  | .makeRule name command ownership => do
      return .object (.rule (← RuleId.make name command ownership))
  | .makeBuild rule outputs ownership => do
      return .object (.build (← BuildId.make rule outputs ownership))
  | .makePool name depth ownership builtIn => do
      return .object (.pool (← PoolId.make name depth ownership (.bool builtIn)))
  | .insert i => handleOf i.program
  | .comment d text => chained (.document d) (d.comment text)
  | .binding d name value => chained (.document d) (d.binding name value)
  | .defaults d outputs => chained (.document d) (d.defaults outputs)
  | .subninja d path => chained (.document d) (d.subninja path)
  | .inclusion d path => chained (.document d) (d.inclusion path)
  | .append d v => do return .int (← (← d.statements).append v)
  | .appendBy h v => do return .int (← (← h.statements).append v)
  | .attach r a => do
      a.program r
      return .null
  | .extend n q items => do
      extendPart n q items
      return .null
  | .adopt n ownership => do
      n.adopt ownership
      return .null
  | .look p => p

/-- A configuration is of the right types, and what the call is about is there. -/
def Fits (s : Store) : Call → Prop
  | .document config => TypedConfig config
  | .build b => TypedConfig b.config ∧ ∀ e ∈ b.rules, Aims (.handle e.2) s
  | .makeRule .. | .makeBuild .. | .makePool .. => True
  | .insert i => Insertion.Fits s i
  | .comment d _ | .binding d .. | .defaults d _ | .subninja d _ | .inclusion d _ => s.HasDocument d
  | .append d v => s.HasDocument d ∧ s.Suits (.statements d) v
  | .appendBy h v => ∃ d, s.Leads h d ∧ s.Suits (.statements d) v
  | .attach r a => Aims r s ∧ HasPart r a.part
  | .extend n q items => s.HasPlace (.part n q) ∧ ∀ v ∈ items, q.admits v
  | .adopt n _ => s.HasNode n
  | .look p => p.Every Light

end Call

variable {α : Type} {J : Assertion}

theorem does_attacher {r : Receiver} (a : Attacher) (has : HasPart r a.part) :
    Does (fun _ s => Aims r s) (a.program r) fun _ _ _ => True := by
  cases a with
  | bind b =>
      cases b with
      | pool v => exact does_usePool r v
      | _ => exact does_attach r _
  | paths slot v => exact does_addPaths r (has.resolve_left (by simp [Attacher.part])) v

theorem hasPart_of_mem {n : Node} {q : Part} (hq : q ∈ n.parts) : HasPart (.node n) q := by
  cases n <;> simp_all [Node.parts, HasPart, Receiver.takesPaths]

theorem does_extend {n : Node} {q : Part} {items : List Value} (hq : q ∈ n.parts)
    (admits : ∀ v ∈ items, q.admits v) :
    Does (fun _ s => s.HasNode n) (extendPart n q items) fun _ _ _ => True := by
  refine does_bind (does_part (r := .node n) (hasPart_of_mem hq)) fun place => does_exists fun m =>
    does_exists fun l => does_pull ?_
  rintro rfl
  exact does_appendTo (f := fun s => ((), s.modifyList l (·.append items))) _ (fun _ => rfl) admits

theorem does_buildDocument (b : Builder) (typed : TypedConfig b.config) :
    Does (fun _ s => ∀ e ∈ b.rules, Aims (.handle e.2) s) (Operation.buildDocument b)
      fun _ _ _ => True := by
  refine does_bind (does_build b typed) fun r => ?_
  exact does_bind (does_ofExcept (Q := fun _ _ _ => True) fun _ _ _ _ _ h => h) fun _ =>
    does_pure fun _ _ _ h => h

/-- Every call keeps homes, with things that are there. -/
theorem does_call (call : Call) :
    Does (fun _ s => call.Fits s) call.program fun _ _ _ => True := by
  have last {α : Type} {J P : Assertion} {Q : α → Assertion} {p : Action α} (f : α → Value)
      (hp : Does J p Q) (pre : ∀ trail s, P trail s → J trail s) :
      Does P (p >>= fun x => Pure.pure (f x)) fun _ _ _ => True :=
    does_bind (hp.pre pre) fun _ => does_pure fun _ _ _ _ => trivial
  have none (trail : List (Store × Store)) (s : Store) (_ : True) : Stock [] trail s := stock_nil
  cases call with
  | document config =>
      exact fun g s good typed => last (fun d => .object (.document d))
        (does_documentMake typed) none g s good trivial
  | build b =>
      rintro g s good ⟨typed, known⟩
      exact does_buildDocument b typed g s good known
  | makeRule name command ownership => exact last _ (does_ruleMake name command ownership) none
  | makeBuild rule outputs ownership => exact last _ (does_buildMake rule outputs ownership) none
  | makePool name depth ownership builtIn =>
      exact last _ (does_poolMake name depth ownership builtIn) none
  | insert i => exact last Handle.toValue (does_insertion i) fun _ _ h => h
  | comment d text => exact last _ (does_comment d text) fun _ _ h => h
  | binding d name value => exact last _ (does_binding d name value) fun _ _ h => h
  | defaults d outputs => exact last _ (does_defaults d outputs) fun _ _ h => h
  | subninja d path => exact last _ (does_subninja d path) fun _ _ h => h
  | inclusion d path => exact last _ (does_inclusion d path) fun _ _ h => h
  | append d v =>
      refine does_atDocument (lasting_suits _ v) fun a => ?_
      exact last _ (does_arenaAppend a d v) fun _ _ h => h
  | appendBy h v =>
      refine does_exists fun d => does_atHandle (lasting_suits _ v) ?_
      exact last _ (does_arenaAppend h.arena d v) fun _ _ h => h
  | attach r a => exact does_pull fun has => last _ (does_attacher a has) fun _ _ h => h
  | extend n q items =>
      rintro g s good ⟨⟨has, hq⟩, admits⟩
      exact last (fun _ => .null) (does_extend hq admits) (fun _ _ h => h) g s good has
  | adopt n ownership => exact last _ (does_adopt n ownership) fun _ _ h => h
  | look p => exact fun g s good light => does_every firm_true light g s good trivial

end Housing

end NinjaFile
