import NinjaFile.Proofs.Frame.Calls
import NinjaFile.Proofs.Overlap.Attaching

/-!
# Calls while others render

What threads can do without taking anything from a statement in a document that threads share:
they make things, attach, and append to documents of any ownership, so long as no statement
that is kept goes into a document of one owner.
-/

namespace NinjaFile

open Store Program Script

/-- The document is there and has one owner. -/
def Store.Single (s : Store) (d : DocumentId) : Prop :=
  s.HasDocument d ∧ (s.document d).arena.ownership = .single

namespace Script.Insertion

/-- Where a statement is inserted. -/
def arena (s : Store) : Insertion → Arena
  | .rule d .. | .addRule d _ | .phony d _ | .addBuild d _ | .pool d .. | .addPool d _ =>
      (s.document d).arena
  | .buildBy h _ | .ruleBy h .. => h.arena

/-- The insertion goes to one owner. -/
def Singles (s : Store) : Insertion → Prop
  | .rule d .. | .addRule d _ | .phony d _ | .addBuild d _ | .pool d .. | .addPool d _ => s.Single d
  | .buildBy h _ | .ruleBy h .. => h.arena.ownership = .single

/-- The statement that is inserted, if it is there already. -/
def node? : Insertion → Option Node
  | .addRule _ r => some (.rule r)
  | .addBuild _ b => some (.build b)
  | .addPool _ p => some (.pool p)
  | _ => none

end Script.Insertion

namespace Overlap

open Housing (Call)
open Sharing (MadeNode)

variable {α : Type} {c : Setting} {d : DocumentId} {a : Arena} {v : Value} {h : Handle}
  {J : Housing.Assertion}

/-! ## Appending -/

/-- What the value names is there. -/
def Present (v : Value) : Housing.Assertion := fun _ s => ∀ n, v.node? = some n → s.HasNode n

theorem lasting_present (v : Value) : Lasting c (Present v) :=
  ⟨fun _ _ _ h gentle n hn => gentle.nodes n (h n hn), fun _ _ _ h => h⟩

/-- A value may go into an arena: it is no kept statement, or the arena is not of one owner. -/
def MayEnter (c : Setting) (a : Arena) (v : Value) : Prop :=
  a.ownership = .single → ∀ n, v.node? = some n → ¬ c.kept n

theorem does_arenaAdopt (may : MayEnter c a v) :
    Does c (Present v) (a.adopt v) fun _ _ s =>
      ∀ n, v.node? = some n → s.HasNode n ∧ (c.kept n → s.Settled n) := by
  rw [Arena.adopt]
  split
  · next n node =>
      refine does_bind (R := fun w trail s => Present v trail s ∧ w = .ownership a.ownership) ?_
        fun ownership => does_pull ?_
      · change Does c _ ((Value.object (.arena a)).storedMember "ownership") _
        refine does_bind (R := fun w trail s => Present v trail s ∧ w = some (.ownership a.ownership)) ?_
          fun w => does_pull ?_
        · refine does_read fun _ s hn good _ => ⟨hn, ?_⟩
          rw [Value.stored?_of_unassigned good.housed.unassigned]
          rfl
        · rintro rfl
          exact does_pure fun _ _ h => ⟨h, rfl⟩
      · rintro rfl
        refine ((does_adopt n fun heq => may (by simpa using heq) n node).pre fun _ s h => h n node).post ?_
        intro _ _ s moved m hm
        obtain rfl : n = m := Option.some.inj (node.symm.trans hm)
        exact moved
  · next none => exact does_pure fun _ _ _ n hn => absurd (none.symm.trans hn) (Option.some_ne_none n).symm

theorem does_append (may : MayEnter c a v) :
    Does c (fun trail s => Into a d trail s ∧ Present v trail s) (a.append v) fun _ _ _ => True := by
  refine does_bind (does_frame (lasting_into a d) ((does_arenaAdopt may).pre fun _ _ h => h) |>.pre
    fun _ _ h => ⟨h.2, h.1⟩) fun _ => ?_
  have lasting : Lasting c fun trail s =>
      (∀ n, v.node? = some n → s.HasNode n ∧ (c.kept n → s.Settled n)) ∧ Into a d trail s := by
    refine Lasting.and ⟨fun _ _ _ h gentle n hn => ?_, fun _ _ _ h => h⟩ (lasting_into a d)
    obtain ⟨has, settled⟩ := h n hn
    exact ⟨gentle.nodes n has, fun hk => gentle.settled hk has (settled hk)⟩
  refine does_bind (R := fun _ _ _ => True) ?_ fun index => ?_
  · refine lasting.does_guarded (does_update (Q := fun _ _ _ => True) ?_) fun _ _ _ _ h _ => h
    rintro trail s ⟨moved, has, arena⟩ - - -
    refine ⟨.append s a.statements fun w hw => .inr ⟨⟨d, has, by rw [arena]⟩, fun n heq hk => ?_⟩, trivial⟩
    obtain rfl := List.mem_singleton.mp hw
    exact (moved n (by rw [heq]; exact Object.node?_ofNode n)).2 hk
  · refine does_every lasting_true (every_bind ?_ fun _ => trivial)
    exact every_aside (quiet_logAppended a v index).aside

theorem does_insert (expected : Expected) (may : MayEnter c a v) :
    Does c (fun trail s => Into a d trail s ∧ Present v trail s)
      ((Value.object (.arena a)).insert expected v) fun _ _ _ => True :=
  does_bind (does_append may) fun _ => does_every lasting_true <|
    every_clerical (every_update (clerical_serial fun _ => Nat.le_succ _))

theorem does_atDocument {k : Value → Action α} {Q : α → Housing.Assertion} (lasting : Lasting c J)
    (hk : Does c (fun trail s => Into a d trail s ∧ J trail s) (k (.object (.arena a))) Q) :
    Does c (fun trail s => Into a d trail s ∧ J trail s) (d.statements >>= k) Q := by
  have both := (lasting_into a d).and lasting
  refine does_bind (R := fun place trail s => (Into a d trail s ∧ J trail s) ∧
    place = .object (.arena a)) ?_ fun place => does_pull ?_
  · change Does c _ ((Value.object (.document d)).storedMember "statements") _
    refine does_bind (R := fun w trail s => (Into a d trail s ∧ J trail s) ∧
      w = some (.object (.arena a))) ?_ fun w => does_pull ?_
    · refine does_read fun _ s h good _ => ⟨both.note _ _ _ h, ?_⟩
      rw [Value.stored?_of_unassigned good.housed.unassigned, ← h.1.2]
      rfl
    · rintro rfl
      exact does_pure fun _ _ h => ⟨h, rfl⟩
  · rintro rfl
    exact hk

/-! ## Insertions -/

section

theorem present_node {n : Node} {s : Store} (has : s.HasNode n) (trail : List (Store × Store)) :
    Present n.toValue trail s := by
  intro m hm
  obtain rfl : n = m := Option.some.inj ((Object.node?_ofNode n).symm.trans hm)
  exact has

variable (spared : ∀ n, c.Made n → MayEnter c a n.toValue)

include spared

theorem does_made {p : Action α} {n : α → Node} {k : α → Action Handle} (hp : Makes c p n)
    (hk : ∀ x, MayEnter c a (n x).toValue → Does c (fun trail s => Into a d trail s ∧
      Present (n x).toValue trail s) (k x) fun _ _ _ => True) :
    Does c (Into a d) (p >>= k) fun _ _ _ => True := by
  refine does_bind (does_along (lasting_into a d) (fun _ _ _ => trivial) hp) fun x => ?_
  refine Does.pre (J := fun trail s => (Into a d trail s ∧ Present (n x).toValue trail s) ∧
    c.Made (n x)) (does_pull fun made => hk x (spared _ made)) fun trail s found => ?_
  exact ⟨⟨found.2, present_node found.1.1 trail⟩, found.1.2⟩

theorem does_documentMade {p : Action α} {n : α → Node} (hp : Makes c p n) (expected : Expected) :
    Does c (Into a d) (p >>= fun x => d.insert expected (n x).toValue) fun _ _ _ => True :=
  does_made spared hp fun _ may => does_atDocument (lasting_present _) (does_insert expected may)

omit spared in
private theorem does_passOn {k : Value → Action α} {Q : α → Housing.Assertion}
    (hk : ∀ ownership, Does c (Into a d) (k ownership) Q) :
    Does c (Into a d) (h.statements >>= fun place => place.member "ownership" >>= k) Q := by
  have lasting := lasting_into (c := c) a d
  refine does_bind (does_every lasting (every_aside (looks_handleStatements h).aside)) fun place => ?_
  exact does_bind (does_every lasting (every_aside (aside_member place _))) hk

theorem does_insertion {i : Insertion} (named : ∀ n, i.node? = some n → MayEnter c a n.toValue) :
    Does c (fun _ s => Housing.Insertion.Fits s i ∧ i.arena s = a) i.program fun _ _ _ => True := by
  have add {n : Node} (d : DocumentId) (expected : Expected) (may : MayEnter c a n.toValue) :
      Does c (fun _ s => (s.HasDocument d ∧ s.HasNode n) ∧ (s.document d).arena = a)
        (d.insert expected n.toValue) fun _ _ _ => True :=
    Does.pre (J := fun trail s => Into a d trail s ∧ Present n.toValue trail s)
      (does_atDocument (lasting_present _) (does_insert expected may))
      fun trail _ h => ⟨⟨h.1.1, h.2⟩, present_node h.1.2 trail⟩
  have leading {h : Handle} {p : Action Handle}
      (hp : h.arena = a → ∀ d, Does c (Into a d) p fun _ _ _ => True) :
      Does c (fun _ s => (∃ d, s.Leads h d) ∧ h.arena = a) p fun _ _ _ => True := by
    rintro trail s ⟨⟨d, leads⟩, arena⟩
    exact hp arena d trail s ⟨leads.has, leads.arena.symm.trans arena⟩
  cases i with
  | rule d name command => exact does_documentMade spared (makes_rule name command _) .rule
  | pool d name depth => exact does_documentMade spared (makes_pool name depth _ _) .pool
  | phony d outputs =>
      refine does_bind (does_every (lasting_into a d) (every_aside (aside_member _ _))) fun rule => ?_
      exact does_documentMade spared (makes_build rule outputs _) .build
  | addRule d r => exact add d .rule (named _ rfl)
  | addBuild d b => exact add d .build (named _ rfl)
  | addPool d p => exact add d .pool (named _ rfl)
  | buildBy h outputs =>
      refine leading fun arena d => does_passOn fun ownership => ?_
      subst arena
      refine does_made spared (makes_build h.toValue outputs ownership) fun b may => ?_
      exact does_atHandle ((lasting_into _ d).and (lasting_present _)) (does_insert .build may)
  | ruleBy h name command =>
      refine leading fun arena d => does_passOn fun ownership => ?_
      subst arena
      refine does_made spared (makes_rule name command ownership) fun r may => ?_
      have lasting := (lasting_into (c := c) h.arena d).and (lasting_present (Node.rule r).toValue)
      refine does_bind ((does_binder (r := .node (.rule r)) lasting (fun _ _ h => h.2 _ rfl)
        (.pool h.toValue)).post fun _ _ _ h => h.1) fun _ => ?_
      exact does_atHandle lasting (does_insert .rule may)

end

/-! ## Statements without lists -/

theorem does_say {make : Action Value} (hmake : Does c (Into a d) make
      fun v trail s => Into a d trail s ∧ v.node? = none) :
    Does c (Into a d) (make >>= d.add) fun _ _ _ => True := by
  refine does_bind hmake fun v => does_pull fun plain => ?_
  have may : MayEnter c a v := fun _ n hn => nomatch plain.symm.trans hn
  refine Does.pre (J := fun trail s => Into a d trail s ∧ Present v trail s)
    (does_atDocument (lasting_present v) ?_) fun _ _ h => ⟨h, fun n hn => nomatch plain.symm.trans hn⟩
  exact does_bind (does_append may) fun _ => does_pure fun _ _ h => h

theorem does_sayObject {f : Serial → Object} (plain : ∀ n, (f n).node? = none) :
    Does c (Into a d) (makeObject f) fun v trail s => Into a d trail s ∧ v.node? = none :=
  (does_makeObject (lasting_into a d) f).post fun _ _ _ ⟨h, n, heq⟩ => ⟨h, heq ▸ plain n⟩

theorem does_sayText (v : Value) {f : String → Serial → Object} (plain : ∀ text n, (f text n).node? = none) :
    Does c (Into a d) (ofExcept v.toArgument >>= fun text => makeObject (f text))
      fun v trail s => Into a d trail s ∧ v.node? = none :=
  does_bind (does_ofExcept (Q := fun _ => Into a d) fun _ _ _ _ h => h) fun text =>
    does_sayObject (plain text)

/-! ## Calls -/

/-- A call that brings lists of one owner to what it is about. -/
def Singles (s : Store) : Call → Prop
  | .insert i => i.Singles s
  | .append d _ => s.Single d
  | .appendBy h _ => h.arena.ownership = .single
  | .adopt _ ownership => ownership = .ownership .single
  | _ => False

/-- The call is about a statement that is there. -/
def Names (n : Node) : Call → Prop
  | .insert i => i.node? = some n
  | .append _ v | .appendBy _ v => v.node? = some n
  | .adopt m _ => m = n
  | _ => False

/-- A call that appends or attaches, or makes something for this.  Anything else may only look
at what there is, or be in the way of others. -/
def Plain : Call → Prop
  | .build _ => False
  | .look p => p.Every Aside
  | _ => True

/-- A call that returns has put all that it attaches where it was to be attached. -/
def Returns (call : Call) : Except Fault Value → List (Store × Store) → Store → Prop :=
  fun r trail _ => ∀ w, r = .ok w → Attaches trail (Put · · · trail) call

/-- What a call that is started knows of its steps: what it makes is not kept if it goes to one
owner. -/
def setting (kept : Node → Prop) (s : Store) (call : Call) : Setting :=
  ⟨kept, fun trail => Singles s call → ∀ n, MadeNode trail n → ¬ kept n⟩

/-- A call does nothing but fair steps so long as it brings no kept statement to one owner. -/
theorem behaves_call {kept : Node → Prop} {call : Call} {s : Store} (plain : Plain call)
    (fits : call.Fits s) (spares : Singles s call → ∀ n, Names n call → ¬ kept n) :
    Behaves (setting kept s call) (Returns call) call.program [] s := by
  let c := setting kept s call
  have run {J : Housing.Assertion} {p : Action Value} {call : Call} (idle : ∀ trail P, Attaches trail P call)
      (h : Does c J p fun _ _ _ => True) (hJ : J [] s) : Behaves c (Returns call) p [] s :=
    behaves_mono (fun _ trail _ _ _ _ => idle trail _) (h [] s hJ)
  have last {α : Type} {J : Housing.Assertion} {p : Action α} {Q : α → Housing.Assertion}
      (f : α → Value) (h : Does c J p Q) :
      Does c J (p >>= fun x => Pure.pure (f x)) fun _ _ _ => True :=
    does_bind h fun _ => does_pure fun _ _ _ => trivial
  -- A value that goes into an arena is named by the call.
  have enter {a : Arena} {v : Value} (single : a.ownership = .single → Singles s call)
      (named : ∀ n, v.node? = some n → Names n call) : MayEnter c a v :=
    fun owner n hn => spares (single owner) n (named n hn)
  have into {d : DocumentId} (has : s.HasDocument d) : Into (s.document d).arena d [] s := ⟨has, rfl⟩
  have present {d : DocumentId} {v : Value} (suits : s.Suits (.statements d) v) : Present v [] s := by
    obtain ⟨o, rfl, -, has⟩ := suits
    exact has
  cases call with
  | document config => exact run (fun _ _ => trivial) (last _ (does_documentMake fits)) trivial
  | build b => exact plain.elim
  | makeRule name command ownership =>
      exact run (fun _ _ => trivial) (last _ (makes_rule name command ownership)) trivial
  | makeBuild rule outputs ownership =>
      exact run (fun _ _ => trivial) (last _ (makes_build rule outputs ownership)) trivial
  | makePool name depth ownership builtIn =>
      exact run (fun _ _ => trivial) (last _ (makes_pool name depth ownership _)) trivial
  | insert i =>
      have single (owner : (i.arena s).ownership = .single) : i.Singles s := by
        cases i with
        | rule | phony | pool => exact ⟨fits, owner⟩
        | addRule | addBuild | addPool => exact ⟨fits.1, owner⟩
        | buildBy | ruleBy => exact owner
      refine run (fun _ _ => trivial)
        (last Handle.toValue (does_insertion (a := i.arena s) ?_ fun n hn => ?_)) ⟨fits, rfl⟩
      · rintro n ⟨trail, given, made⟩ owner m hm
        obtain rfl : n = m := Option.some.inj ((Object.node?_ofNode n).symm.trans hm)
        exact given (single owner) n made
      · refine enter single fun m hm => ?_
        obtain rfl : n = m := Option.some.inj ((Object.node?_ofNode n).symm.trans hm)
        exact hn
  | comment d text =>
      exact run (fun _ _ => trivial) (last _ (does_say (does_sayText text fun _ _ => rfl))) (into fits)
  | binding d name value =>
      refine run (fun _ _ => trivial)
        (last _ (does_say ((does_makeBinding (lasting_into _ d) name value).post ?_))) (into fits)
      rintro _ _ _ ⟨h, n, b, rfl, -⟩
      exact ⟨h, rfl⟩
  | defaults d outputs =>
      refine run (fun _ _ => trivial) (last _ (does_say (does_bind (does_every (lasting_into _ d)
        (every_aside (aside_arguments outputs))) fun _ => ?_))) (into fits)
      exact does_sayObject fun _ => rfl
  | subninja d path =>
      exact run (fun _ _ => trivial) (last _ (does_say (does_sayText path fun _ _ => rfl))) (into fits)
  | inclusion d path =>
      exact run (fun _ _ => trivial) (last _ (does_say (does_sayText path fun _ _ => rfl))) (into fits)
  | append d v =>
      have may := enter (v := v) (a := (s.document d).arena) (fun owner => ⟨fits.1, owner⟩) fun n hn => hn
      exact run (fun _ _ => trivial) (does_atDocument (lasting_present v) (last _ (does_append may)))
        ⟨into fits.1, present fits.2⟩
  | appendBy h v =>
      obtain ⟨d, leads, suits⟩ := fits
      have may := enter (v := v) (a := h.arena) id fun n hn => hn
      refine run (fun _ _ => trivial)
        (does_atHandle ((lasting_into _ d).and (lasting_present v)) (last _ (does_append may))) ?_
      exact ⟨⟨leads.has, leads.arena.symm⟩, present suits⟩
  | attach r a =>
      refine does_bind (does_attacher (lasting_aims r) (fun _ _ h => h) fits.2) (fun _ => ?_) [] s fits.1
      exact does_pure fun _ _ h => h.2
  | extend n q items =>
      refine does_bind (does_extendPart (lasting_hasNode n) (fun _ _ h => h) fits.1.2 fits.2)
        (fun _ => ?_) [] s fits.1.1
      exact does_pure fun _ _ h => h.2
  | adopt n ownership =>
      exact run (fun _ _ => trivial) (last _ (does_adopt n fun heq => spares heq n rfl)) fits
  | look p => exact run (fun _ _ => trivial) (does_every lasting_true (every_aside plain)) trivial

end Overlap

end NinjaFile
