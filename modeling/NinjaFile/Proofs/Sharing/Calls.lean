import NinjaFile.Proofs.Arena.Stability
import NinjaFile.Proofs.Document.Content

/-!
# Calls on a shared document

What threads do with a document that several of them share: they make statements of
their own, insert statements, attach to them, render the document, hold lists for reading
and make lazy sources for all this.
-/

namespace NinjaFile

namespace Store

/-- The list is there, and several threads may use it. -/
structure Shares (s : Store) (l : ListId) : Prop where
  known : l.index < s.lists.size
  shared : (s.list l).ownership = .shared

instance (s : Store) (l : ListId) : Decidable (s.Shares l) :=
  decidable_of_iff (l.index < s.lists.size ∧ (s.list l).ownership = .shared)
    ⟨fun ⟨known, shared⟩ => ⟨known, shared⟩, fun h => ⟨h.known, h.shared⟩⟩

instance (s : Store) (n : Node) : Decidable (s.HasNode n) := by
  cases n <;> exact Nat.decLt _ _

/-- If items are taken out of the value, or it is looked through, then that is a look at a
list that is shared, or at one of some others. -/
def Offers (s : Store) (others : List ListId) : Value → Prop
  | .object (.list l) => s.Shares l ∨ l ∈ others
  | .object (.arena a) => s.Shares a.statements
  | .object (.handle h) => s.Shares h.arena.statements
  | _ => True

instance (s : Store) (others : List ListId) (v : Value) : Decidable (s.Offers others v) := by
  unfold Offers
  split <;> infer_instance

end Store

/-- What is attached to, if it is there already. -/
def Receiver.subject? (s : Store) : Receiver → Option Node
  | .node n => some n
  | .handle h => ((s.list h.arena.statements).items[h.index.toNat]?).bind Value.node?
  | .mixin _ => none

/-- Only builds have paths. -/
def Receiver.takesPaths : Receiver → Bool
  | .node (.build _) => true
  | .node _ => false
  | .handle h => h.expected = .build
  | .mixin m => m = .buildVariables

namespace Sharing

open Script Store

inductive Call where
  /-- A statement that is not in a document yet. -/
  | makeRule (name command : Value) (ownership : Ownership)
  | makeBuild (rule outputs : Value) (ownership : Ownership)
  | makePool (name depth : Value) (ownership : Ownership) (builtIn : Bool)
  | insert (i : Insertion)
  | comment (d : DocumentId) (text : Value)
  | binding (d : DocumentId) (name value : Value)
  | defaults (d : DocumentId) (outputs : Value)
  | subninja (d : DocumentId) (path : Value)
  | inclusion (d : DocumentId) (path : Value)
  | attach (r : Receiver) (bindings : Attachment)
  | usePool (r : Receiver) (pool : Value)
  | addPaths (r : Receiver) (slot : Slot) (paths : Value)
  | render (d : DocumentId)
  /-- A list is held for reading while the thread goes on with other calls. -/
  | hold (l : ListId)
  | source (items : List Value) (raises : Option String)

namespace Call

def program : Call → Action Value
  | .makeRule name command ownership => do
      return .object (.rule (← RuleId.make name command (.ownership ownership)))
  | .makeBuild rule outputs ownership => do
      return .object (.build (← BuildId.make rule outputs (.ownership ownership)))
  | .makePool name depth ownership builtIn => do
      return .object (.pool (← PoolId.make name depth (.ownership ownership) (.bool builtIn)))
  | .insert i => handleOf i.program
  | .comment d text => chained (.document d) (d.comment text)
  | .binding d name value => chained (.document d) (d.binding name value)
  | .defaults d outputs => chained (.document d) (d.defaults outputs)
  | .subninja d path => chained (.document d) (d.subninja path)
  | .inclusion d path => chained (.document d) (d.inclusion path)
  | .attach r bindings => do
      r.attach bindings
      return .null
  | .usePool r pool => do
      r.usePool pool
      return .null
  | .addPaths r slot paths => do
      r.addPaths slot paths
      return .null
  | .render d => do return .text (← d.render)
  | .hold l => .guarded (.list l) .read (return .null)
  | .source items raises => Operation.makeSource items raises

/-- The statement that a call changes or appends, if it is there already. -/
def subject? (s : Store) : Call → Option Node
  | .insert (.addRule _ r) => some (.rule r)
  | .insert (.addBuild _ b) => some (.build b)
  | .insert (.addPool _ p) => some (.pool p)
  | .attach r _ | .usePool r _ | .addPaths r _ _ => r.subject? s
  | _ => none

/-- The call appends something to a document. -/
def inserts : Call → Bool
  | .insert _ | .comment .. | .binding .. | .defaults .. | .subninja .. | .inclusion .. => true
  | _ => false

def holds : Call → Bool
  | .hold _ => true
  | _ => false

/-- What the call takes items out of, or looks through. -/
def looksInto : Call → List Value
  | .makeBuild rule outputs _ => [rule, outputs]
  | .insert (.phony _ outputs) | .insert (.buildBy _ outputs) => [outputs]
  | .defaults _ outputs => [outputs]
  | .usePool _ pool => [pool]
  | .addPaths _ _ paths => [paths]
  | .hold l => [.object (.list l)]
  | _ => []

/-- The lists that the call takes items out of and that are not shared. -/
def borrows (s : Store) (c : Call) : List ListId :=
  c.looksInto.filterMap fun
    | .object (.list l) => if s.Shares l then none else some l
    | _ => none

/-- What the call is made on, apart from the statement that it changes. -/
def target? : Call → Option Object
  | .insert i => some i.owner
  | .comment d _ | .binding d .. | .defaults d _ | .subninja d _ | .inclusion d _ =>
      some (.document d)
  | .attach (.handle h) _ | .usePool (.handle h) _ | .addPaths (.handle h) .. => some (.handle h)
  | .render d => some (.document d)
  | _ => none

/-- What the call is made on has such a method. -/
def fits : Call → Bool
  | .insert i => i.fits
  | .addPaths r .. => r.takesPaths
  | _ => true

/-- The handle that is attached through. -/
def through? : Call → Option Handle
  | .attach (.handle h) _ | .usePool (.handle h) _ | .addPaths (.handle h) .. => some h
  | _ => none

end Call

/-- The object is the document, or a handle to a statement of it. -/
def Belongs (d : DocumentId) (a : Arena) : Object → Prop
  | .document other => other = d
  | .handle h => h.arena = a
  | _ => False

instance (d : DocumentId) (a : Arena) (o : Object) : Decidable (Belongs d a o) := by
  unfold Belongs
  split <;> infer_instance

/-- The handle leads to a statement that is there. -/
def Reaches (s : Store) (h : Handle) : Prop :=
  0 ≤ h.index ∧ h.index.toNat < (s.list h.arena.statements).items.length

instance (s : Store) (h : Handle) : Decidable (Reaches s h) := instDecidableAnd

/-- A call on the document `d` with the arena `a`, and on things that are there. -/
structure Call.Fits (d : DocumentId) (a : Arena) (s : Store) (c : Call) : Prop where
  fits : c.fits
  belongs : ∀ o ∈ c.target?, Belongs d a o
  offers : ∀ v ∈ c.looksInto, s.Offers (c.borrows s) v
  has : ∀ n ∈ c.subject? s, s.HasNode n
  reaches : ∀ h ∈ c.through?, Reaches s h

instance (d : DocumentId) (a : Arena) (s : Store) (c : Call) : Decidable (c.Fits d a s) :=
  decidable_of_iff (c.fits ∧ (∀ o ∈ c.target?, Belongs d a o) ∧
      (∀ v ∈ c.looksInto, s.Offers (c.borrows s) v) ∧
      (∀ n ∈ c.subject? s, s.HasNode n) ∧ ∀ h ∈ c.through?, Reaches s h)
    ⟨fun ⟨fits, belongs, offers, has, reaches⟩ => ⟨fits, belongs, offers, has, reaches⟩,
      fun h => ⟨h.fits, h.belongs, h.offers, h.has, h.reaches⟩⟩

/-! ## What a call has to itself -/

/-- What a call can count on from its start: the statement that it is about and the lists
that this has, other lists that are not shared, and what the call is for. -/
structure Stake where
  node : Option Node
  lists : List ListId
  borrows : List ListId
  inserts : Bool
  holds : Bool

/-- The lists of a statement. -/
def listsOf (s : Store) (n : Node) : List ListId := n.parts.map (s.part n)

def Call.stake (s : Store) (c : Call) : Stake where
  node := c.subject? s
  lists := ((c.subject? s).map (listsOf s)).getD []
  borrows := c.borrows s
  inserts := c.inserts
  holds := c.holds

/-- The list was made by one of some steps. -/
def MadeList (trail : List (Store × Store)) (l : ListId) : Prop :=
  ∃ step ∈ trail, step.1.lists.size ≤ l.index ∧ l.index < step.2.lists.size

/-- The statement was made by one of some steps. -/
def MadeNode (trail : List (Store × Store)) (n : Node) : Prop :=
  ∃ step ∈ trail, ¬ step.1.HasNode n ∧ step.2.HasNode n

instance (trail : List (Store × Store)) (l : ListId) : Decidable (MadeList trail l) :=
  inferInstanceAs (Decidable (∃ step ∈ trail,
    step.1.lists.size ≤ l.index ∧ l.index < step.2.lists.size))

instance (trail : List (Store × Store)) (n : Node) : Decidable (MadeNode trail n) :=
  inferInstanceAs (Decidable (∃ step ∈ trail, ¬ step.1.HasNode n ∧ step.2.HasNode n))

namespace Stake

/-- The call is about the list, or has made it. -/
def HasList (k : Stake) (trail : List (Store × Store)) (l : ListId) : Prop :=
  l ∈ k.lists ∨ MadeList trail l

/-- The call is about the statement, or has made it. -/
def HasNode (k : Stake) (trail : List (Store × Store)) (n : Node) : Prop :=
  k.node = some n ∨ MadeNode trail n

instance (k : Stake) (trail : List (Store × Store)) (l : ListId) : Decidable (k.HasList trail l) :=
  instDecidableOr

instance (k : Stake) (trail : List (Store × Store)) (n : Node) : Decidable (k.HasNode trail n) :=
  instDecidableOr

end Stake

end Sharing

end NinjaFile
