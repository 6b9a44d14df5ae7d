import NinjaFile.Proofs.Script.Operations
import NinjaFile.Proofs.Twin.Classes
import NinjaFile.Proofs.Twin.Creating
import NinjaFile.Proofs.Twin.Display
import NinjaFile.Proofs.Twin.Equality
import NinjaFile.Proofs.Twin.Methods

/-!
# Scripts with documents of any ownership

A script makes documents and statements, calls the methods of documents, nodes and handles,
compares values and looks at what has come of it.  Two runs of it that differ in nothing but
who may use the documents come to the same: every step has the same result or fails in the
same way, and everything is rendered to the same text.
-/

namespace NinjaFile.Twin

open Action Program Store Script

/-! ## Scripts -/

/-- What a script hands over: plain data, and what earlier steps have given. -/
inductive Operand where
  | plain (v : Value) (h : v.isAtom)
  | given (step : Nat)
  | list (items : List Operand)
  | tuple (items : List Operand)
  /-- A dictionary with its keys and values one by one. -/
  | mapping (keys entries : List Operand)

mutual

def Operand.value (results : List Value) : Operand → Value
  | .plain v _ => v
  | .given step => results.getD step .null
  | .list items => .list (values results items)
  | .tuple items => .tuple (values results items)
  | .mapping keys entries => .mapping ((values results keys).zip (values results entries))

def values (results : List Value) : List Operand → List Value
  | [] => []
  | o :: rest => o.value results :: values results rest

end

/-- Operands that are handed over by name. -/
def namedValues (results : List Value) (named : List (String × Operand)) : List (String × Value) :=
  named.map fun x => (x.1, x.2.value results)

/-- A step of a script. -/
inductive Command where
  /-- Makes a document; a run says who may use it. -/
  | document (choices : Choices)
  /-- Makes a statement by itself. -/
  | statement (k : Kind) (args : List Operand) (named : List (String × Operand))
  | call (owner : Operand) (method : String) (args : List Operand) (named : List (String × Operand))
  /-- Looks up an attribute, but none that tells who may use something. -/
  | get (owner : Operand) (name : String) (h : name ∉ ownerNames)
  /-- Whether two values are equal, and agree as keys. -/
  | compare (a b : Operand)
  | say (v : Operand)
  | display (v : Operand)
  /-- Makes a source that runs no steps. -/
  | source (items : List Operand) (raises : Option String)

namespace Command

/-- What a step does; `threadSafe` is for the document that it may make. -/
def program (threadSafe : Option Bool) (results : List Value) : Command → Action Value
  | .document choices => do return (← DocumentId.make (choices.config threadSafe)).toValue
  | .statement k args named =>
      let args := values results args
      let named := namedValues results named
      if k ≠ .pool ∨ builtInFits args named then k.maker.make args named
      else .fail .notImplemented
  | .call owner method args named =>
      let v := owner.value results
      if IsReceiver v then callNamed v method (values results args) (namedValues results named)
      else .fail .notImplemented
  | .get owner name _ =>
      let v := owner.value results
      if IsReceiver v then memberOf v name else .fail .notImplemented
  | .compare a b => comparison (a.value results) (b.value results)
  | .say v => do return .text (← (v.value results).toText)
  | .display v => do return .text (← (v.value results).display)
  | .source items raises => Operation.makeSource (values results items) raises

/-- What later steps are given; texts that may name an ownership are for the reader only. -/
def remembered : Command → Except Fault Value → Value
  | .say _, _ | .display _, _ => .null
  | _, .ok v => v
  | _, .error _ => .null

/-- Results of a step that go together. -/
def Likens (c : Scope) : Command → Value → Value → Prop
  | .say _ | .display _ => fun v w => ∃ x y, v = .text x ∧ w = .text y ∧ Echo x y
  | _ => Like c

/-- Log lines of a step that go together: the same ones, but for the ownership of a document
that is made. -/
def Logs (s s' t t' : Store) : Command → Prop
  | .document _ => ∃ o o', Announced o o' s s' t t'
  | _ => ∃ new, t.logging.lines = s.logging.lines ++ new ∧
      t'.logging.lines = s'.logging.lines ++ new

end Command

/-- A step that has been taken. -/
structure Event where
  command : Command
  before : Store
  result : Except Fault Value
  after : Store

/-- The steps of a script, from a store and from what earlier steps have given.  The document
that a step may make is for several threads if `threadSafe` says so of the step. -/
def run (threadSafe : Nat → Option Bool) : List Command → List Value → Store → List Event
  | [], _, _ => []
  | c :: rest, results, s =>
      let (r, t) := (c.program (threadSafe results.length) results).alone s
      ⟨c, s, r, t⟩ :: run threadSafe rest (results ++ [c.remembered r]) t

/-- A step has come to the same in two runs. -/
structure Matches (e e' : Event) : Prop where
  command : e'.command = e.command
  result : Agree (e.command.Likens (e.after.scope e'.after)) e.result e'.result
  documents : ∀ d, e.after.HasDocument d → (d.render.alone e'.after).1 = (d.render.alone e.after).1
  nodes : ∀ n, e.after.HasNode n → (n.render.alone e'.after).1 = (n.render.alone e.after).1
  files : e'.after.files = e.after.files
  logs : e.command.Logs e.before e'.before e.after e'.after

/-! ## Operands -/

section Operands

variable {c : Scope} {results results' : List Value}

private theorem like_zip {ks ls vs ws : List Value} (keys : LikeAll c ks ls)
    (values : LikeAll c vs ws) : Like c (.mapping (ks.zip vs)) (.mapping (ls.zip ws)) := by
  have entries : LikeAll c ((ks.zip vs).map Prod.fst) ((ls.zip ws).map Prod.fst) ∧
      LikeAll c ((ks.zip vs).map Prod.snd) ((ls.zip ws).map Prod.snd) := by
    induction keys generalizing vs ws with
    | nil => exact ⟨.nil, .nil⟩
    | cons key _ ih =>
        cases values with
        | nil => exact ⟨.nil, .nil⟩
        | cons value rest => exact ⟨.cons key (ih rest).1, .cons value (ih rest).2⟩
  exact .mapping entries.1 entries.2

mutual

theorem Operand.value_like (h : LikeAll c results results') (o : Operand) :
    Like c (o.value results) (o.value results') := by
  cases o with
  | plain v hv => exact .atom hv
  | given step => exact h.getD step
  | list items => exact .list (values_like h items)
  | tuple items => exact .tuple (values_like h items)
  | mapping keys entries => exact like_zip (values_like h keys) (values_like h entries)

theorem values_like (h : LikeAll c results results') (items : List Operand) :
    LikeAll c (values results items) (values results' items) := by
  cases items with
  | nil => exact .nil
  | cons o rest => exact .cons (o.value_like h) (values_like h rest)

end

theorem namedValues_like (h : LikeAll c results results') (named : List (String × Operand)) :
    LikeNamed c (namedValues results named) (namedValues results' named) := by
  induction named with
  | nil => exact .nil
  | cons x rest ih => exact .cons ⟨rfl, x.2.value_like h⟩ ih

theorem isReceiver_eq {v w : Value} (h : Like c v w) : IsReceiver w = IsReceiver v := by
  cases h <;> rfl

end Operands

/-! ## One step -/

variable {s s' : Store} {results results' : List Value}

/-- What a step may do to a store. -/
def Command.Reaches : Command → Store → Store → Prop
  | .call _ method _ _ => Reach method
  | _ => Once

/-- A step that was taken from twins has come to the same. -/
structure Taken (c : Command) (s s' : Store) (x x' : Except Fault Value × Store) : Prop where
  twin : x.2.Twin x'.2
  left : c.Reaches s x.2
  right : c.Reaches s' x'.2
  result : Agree (c.Likens (x.2.scope x'.2)) x.1 x'.1
  logs : c.Logs s s' x.2 x'.2

theorem Taken.of_ends {c : Command} {x x' : Except Fault Value × Store}
    (h : Ends c.Reaches s s' (fun v w t t' => c.Likens (t.scope t') v w) x x')
    (logs : ∀ t t', (∃ new, t.logging.lines = s.logging.lines ++ new ∧
      t'.logging.lines = s'.logging.lines ++ new) → c.Logs s s' t t') :
    Taken c s s' x x' := by
  cases h with
  | ok after like => exact ⟨after.twin, after.left, after.right, .ok like, logs _ _ after.lines⟩
  | error after => exact ⟨after.twin, after.left, after.right, .error _, logs _ _ after.lines⟩

theorem inStep_makeSource (h : s.Twin s') {items items' : List Value}
    (hitems : LikeAll (s.scope s') items items') (raises : Option String) :
    InStep Kept (Operation.makeSource items raises) (Operation.makeSource items' raises) s s'
      fun v w t t' => Like (t.scope t') v w := by
  have kept (s : Store) (x : Source) : s.Kept (s.insertSource x).2 :=
    ⟨⟨fun _ => id, Nat.le_refl _, fun _ _ => rfl, by simp [Store.insertSource]⟩, fun _ => rfl,
      fun _ _ _ => rfl⟩
  have twin := h.insertSource (x := ⟨items, .ready, raises⟩) (y := ⟨items', .ready, raises⟩)
    ⟨hitems, rfl, rfl⟩
  have same : (⟨s'.sources.size⟩ : SourceId) = ⟨s.sources.size⟩ := congrArg SourceId.mk h.sources
  refine inStep_of_alone (a := .source ⟨s.sources.size⟩) (b := .source ⟨s'.sources.size⟩) rfl rfl
    ⟨twin, kept _ _, kept _ _, [], (List.append_nil _).symm, (List.append_nil _).symm⟩ ?_
  rw [same]
  exact .source (by simp [scope, Store.insertSource])

instance (name : String) : Precedes (Reach name) Grown := by
  rw [Reach]
  split <;> infer_instance

theorem Command.Reaches.grown {c : Command} {t : Store} (h : c.Reaches s t) : s.Grown t := by
  cases c with
  | call _ method =>
      have reach : Reach method s t := h
      exact Precedes.left reach
  | _ => exact Once.grown h

theorem taken_document (h : s.Twin s') (choices : Choices) (flag flag' : Option Bool) :
    Taken (.document choices) s s'
      (((Command.document choices).program flag results).alone s)
      (((Command.document choices).program flag' results').alone s') := by
  obtain ⟨r, t, t', left, right, twin, kept, kept', known, told⟩ := documentMake h choices flag flag'
  cases r with
  | error fault =>
      have failed {flag : Option Bool} {results : List Value} {s t : Store}
          (made : (DocumentId.make (choices.config flag)).alone s = (.error fault, t)) :
          ((Command.document choices).program flag results).alone s = (.error fault, t) := by
        rw [Command.program, alone_bind, made]
      rw [failed left, failed right]
      exact ⟨twin, .inl kept, .inl kept', .error fault, _, _, told⟩
  | ok d =>
      have gives {flag : Option Bool} {results : List Value} {s t : Store}
          (made : (DocumentId.make (choices.config flag)).alone s = (.ok d, t)) :
          ((Command.document choices).program flag results).alone s = (.ok d.toValue, t) :=
        alone_bind_ok made _
      rw [gives left, gives right]
      exact ⟨twin, .inl kept, .inl kept', .ok (.document (known d rfl)), _, _, told⟩

theorem Command.taken (c : Command) (h : s.Twin s') (given : LikeAll (s.scope s') results results')
    (flag flag' : Option Bool) :
    Taken c s s' ((c.program flag results).alone s) ((c.program flag' results').alone s') := by
  cases c with
  | document choices => exact taken_document h choices flag flag'
  | statement k args named =>
      refine .of_ends ?_ fun _ _ => id
      have hargs := values_like given args
      have hnamed := namedValues_like given named
      change InStep Once (if _ then _ else _) (if _ then _ else _) s s' _
      by_cases hk : k = .pool
      · subst hk
        obtain ⟨fits, like⟩ := inStep_makePool h hargs hnamed
        rw [fits]
        split
        · next fit => exact (like (fit.resolve_left fun ne => ne rfl)).weaken
        · exact inStep_fail h _
      · rw [if_pos (.inl hk), if_pos (.inl hk), k.make_maker, k.make_maker]
        exact ((maker_like h hk).call h hargs hnamed).weaken
  | call owner method args named =>
      refine .of_ends ?_ fun _ _ => id
      have like := owner.value_like given
      change InStep (Reach method) (if _ then _ else _) (if _ then _ else _) s s' _
      rw [isReceiver_eq like]
      split
      · next receives =>
          exact inStep_callNamed h like receives method (values_like given args)
            (namedValues_like given named)
      · exact inStep_fail h _
  | get owner name hname =>
      refine .of_ends ?_ fun _ _ => id
      have like := owner.value_like given
      change InStep Once (if _ then _ else _) (if _ then _ else _) s s' _
      rw [isReceiver_eq like]
      split
      · next receives => exact (inStep_memberOf h like receives hname).weaken
      · exact inStep_fail h _
  | compare a b =>
      refine .of_ends ?_ fun _ _ => id
      change InStep Once _ _ s s' _
      exact (inStep_comparison h (a.value_like given) (b.value_like given)).weaken
  | say v =>
      refine .of_ends ?_ fun _ _ => id
      change InStep Once _ _ s s' _
      exact inStep_bind (inStep_toText h (v.value_like given)) fun x y _ _ after echo =>
        inStep_pure after.twin ⟨x, y, rfl, rfl, echo⟩
  | display v =>
      refine .of_ends ?_ fun _ _ => id
      change InStep Once _ _ s s' _
      exact inStep_bind (inStep_display h (v.value_like given)) fun x y _ _ after echo =>
        inStep_pure after.twin ⟨x, y, rfl, rfl, echo⟩
  | source items raises =>
      refine .of_ends ?_ fun _ _ => id
      change InStep Once _ _ s s' _
      exact (inStep_makeSource h (values_like given items) raises).weaken

theorem Command.remembered_like (c : Command) {scope : Scope} {r r' : Except Fault Value}
    (h : Agree (c.Likens scope) r r') : Like scope (c.remembered r) (c.remembered r') := by
  cases h with
  | error fault => cases c <;> exact .atom rfl
  | ok like => cases c <;> first | exact like | exact .atom rfl

/-! ## Whole scripts -/

theorem twin_ofFiles (files : FileTree) : Store.Twin (.ofFiles files) (.ofFiles files) := by
  have tidy : (Store.ofFiles files).Tidy :=
    { unassigned := rfl
      guarded := fun _ h => absurd h (Nat.not_lt_zero _)
      known := fun x h => absurd h (not_hasPlace_ofFiles files x)
      apart := fun x _ h => absurd h (not_hasPlace_ofFiles files x)
      proper := fun _ _ h => absurd h (not_hasPlace_ofFiles files _)
      phony := fun _ h => absurd h (Nat.not_lt_zero _)
      console := fun _ h => absurd h (Nat.not_lt_zero _) }
  exact
    { left := tidy
      right := tidy
      serial := rfl
      files := rfl
      loggers := rfl
      nodes := fun _ => Iff.rfl
      fields := fun _ _ => rfl
      documents := rfl
      document := fun _ h => absurd h (Nat.not_lt_zero _)
      sources := rfl
      source := fun _ h => absurd h (Nat.not_lt_zero _)
      held := fun x h => absurd h (not_hasPlace_ofFiles files x) }

private theorem InStep.fst_eq {R : Store → Store → Prop} {p p' : Action String}
    (h : InStep R p p' s s' fun x y _ _ => y = x) : (p'.alone s').1 = (p.alone s).1 := by
  rw [InStep] at h
  generalize p.alone s = r at h ⊢
  generalize p'.alone s' = r' at h ⊢
  cases h with
  | ok _ heq => exact congrArg Except.ok heq
  | error _ => rfl

theorem matches_of_taken {c : Command} {r r' : Except Fault Value} {t t' : Store}
    (h : Taken c s s' (r, t) (r', t')) : Matches ⟨c, s, r, t⟩ ⟨c, s', r', t'⟩ where
  command := rfl
  result := h.result
  documents _ hd := (inStep_render h.twin hd).fst_eq
  nodes _ hn := (inStep_nodeRender h.twin hn).fst_eq
  files := h.twin.files
  logs := h.logs

theorem run_like (flags flags' : Nat → Option Bool) (script : List Command) (h : s.Twin s')
    (given : LikeAll (s.scope s') results results') :
    List.Forall₂ Matches (run flags script results s) (run flags' script results' s') := by
  induction script generalizing s s' results results' with
  | nil => exact .nil
  | cons c rest ih =>
      have taken := c.taken h given (flags results.length) (flags' results'.length)
      have within := scope_within h taken.left.grown taken.right.grown
      refine .cons (matches_of_taken taken) (ih taken.twin ?_)
      exact List.rel_append (given.mono within) (.cons (c.remembered_like taken.result) .nil)

/-- Who may use the documents makes no difference to what a script comes to. -/
theorem run_transparent (files : FileTree) (flags flags' : Nat → Option Bool)
    (script : List Command) :
    List.Forall₂ Matches (run flags script [] (.ofFiles files))
      (run flags' script [] (.ofFiles files)) :=
  run_like flags flags' script (twin_ofFiles files) .nil

end NinjaFile.Twin
