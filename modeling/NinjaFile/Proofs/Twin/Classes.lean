import NinjaFile.Proofs.Twin.Looking
import NinjaFile.Proofs.Twin.Making
import NinjaFile.Script.Making

/-!
# Statements that are made by themselves

A statement that is in no document yet is the same one on either side, with whatever
arguments and whatever ownership it is made.
-/

namespace NinjaFile

open Action Program Script

namespace Kind

/-- The class that statements of a kind are made by. -/
def maker : Kind → Script.Class
  | .comment => .comment
  | .rule => .rule
  | .build => .build
  | .binding => .binding
  | .defaults => .defaults
  | .subninja => .subninja
  | .inclusion => .inclusion
  | .pool => .pool

theorem make_maker (k : Kind) (args : List Value) (named : List (String × Value)) :
    k.maker.make args named = k.maker.callable.call args named := by cases k <;> rfl

end Kind

namespace Twin

open Store

variable {s s' : Store} {args args' : List Value} {named named' : List (String × Value)}

/-- All statements but pools are made in the same way on either side. -/
theorem construct_like (h : s.Twin s') {k : Kind} (hk : k ≠ .pool) {vs ws : List Value}
    (hvs : LikeAll (s.scope s') vs ws) :
    InStep Kept (k.maker.construct vs) (k.maker.construct ws) s s' fun v w t t' =>
      Like (t.scope t') v w := by
  have unfit : InStep Kept (.fail .notImplemented : Action Value) (.fail .notImplemented) s s'
      fun v w t t' => Like (t.scope t') v w := inStep_fail h _
  rcases hvs with _ | ⟨first, _ | ⟨second, _ | ⟨third, _ | _⟩⟩⟩ <;> cases k <;>
    first | exact unfit | exact absurd rfl hk | skip
  case cons.nil.comment =>
    exact (inStep_makeText h first (f := fun text n => .comment n text) fun _ _ => rfl).weaken
  case cons.nil.defaults => exact (inStep_makeDefaults h first).weaken
  case cons.nil.subninja =>
    exact (inStep_makeText h first (f := fun path n => .subninja n path) fun _ _ => rfl).weaken
  case cons.nil.inclusion =>
    exact (inStep_makeText h first (f := fun path n => .inclusion n path) fun _ _ => rfl).weaken
  case cons.cons.nil.binding =>
    refine ((inStep_makeBinding h first second).mono fun v w _ _ ⟨heq, n, b, hb⟩ => ?_).weaken
    rw [heq, hb]
    exact .fixed rfl
  case cons.cons.cons.nil.rule =>
    refine inStep_bind (inStep_ruleMake h first second third.ownership)
      fun _ r _ _ after found => ?_
    obtain ⟨heq, known⟩ := found
    subst heq
    exact inStep_pure after.twin (.node (n := .rule r) known)
  case cons.cons.cons.nil.build =>
    refine inStep_bind (inStep_buildMake h first second third.ownership)
      fun _ b _ _ after found => ?_
    obtain ⟨heq, known⟩ := found
    subst heq
    exact inStep_pure after.twin (.node (n := .build b) known)

theorem maker_like (h : s.Twin s') {k : Kind} (hk : k ≠ .pool) :
    LikeCallable Kept s s' k.maker.callable k.maker.callable where
  same := rfl
  plain := by cases k <;> simp [PlainParameters, Class.callable, Class.parameters, Kind.maker, needed,
    Class.ownershipParameter, Value.isAtom]
  run _ _ hvs := construct_like h hk hvs

def isTruth : Value → Bool
  | .bool _ => true
  | _ => false

private theorem truth_like {c : Scope} {v w : Value} (hv : isTruth v) (h : Like c v w) :
    ∃ b, v = .bool b ∧ w = .bool b := by
  cases v with
  | bool b => exact ⟨b, rfl, h.eq_of_atom rfl⟩
  | _ => cases hv

/-- Whether a pool is built in, which is its last parameter, has to be a truth value. -/
def builtInFits (args : List Value) (named : List (String × Value)) : Bool :=
  match Class.pool.callable.bind args named with
  | .ok vs => vs.getLast?.all isTruth
  | .error _ => true

private theorem last_like {c : Scope} {vs ws : List Value} (h : LikeAll c vs ws) :
    Option.Rel (Like c) vs.getLast? ws.getLast? := by
  rw [List.getLast?_eq_head?_reverse, List.getLast?_eq_head?_reverse]
  have reversed := List.rel_reverse h
  generalize vs.reverse = vs, ws.reverse = ws at reversed ⊢
  cases reversed with
  | nil => exact .none
  | cons last _ => exact .some last

theorem inStep_makePool (h : s.Twin s') (hargs : LikeAll (s.scope s') args args')
    (hnamed : LikeNamed (s.scope s') named named') :
    builtInFits args' named' = builtInFits args named ∧
      (builtInFits args named → InStep Kept (Class.pool.make args named)
        (Class.pool.make args' named') s s' fun v w t t' => Like (t.scope t') v w) := by
  have plain : PlainParameters Class.pool.callable.parameters := by
    simp [PlainParameters, Class.callable, Class.parameters, needed, Class.ownershipParameter,
      Value.isAtom]
  have agree := bind_agree Class.pool.callable plain hargs hnamed
  change _ ∧ (_ → InStep Kept (Class.pool.callable.call _ _) (Class.pool.callable.call _ _) s s' _)
  rw [builtInFits, builtInFits, Callable.call, Callable.call]
  generalize Class.pool.callable.bind args _ = r at agree ⊢
  generalize Class.pool.callable.bind args' _ = r' at agree ⊢
  cases agree with
  | error fault => exact ⟨rfl, fun _ => inStep_fail h fault⟩
  | @ok vs ws hvs =>
      dsimp only
      refine ⟨?_, fun fits => ?_⟩
      · have last := last_like hvs
        generalize vs.getLast? = v, ws.getLast? = w at last ⊢
        cases last with
        | none => rfl
        | some like => cases like <;> rfl
      change InStep Kept (Class.pool.construct vs) (Class.pool.construct ws) s s' _
      have unfit : InStep Kept (.fail .notImplemented : Action Value) (.fail .notImplemented) s s'
          fun v w t t' => Like (t.scope t') v w := inStep_fail h _
      rcases hvs with _ | ⟨first, _ | ⟨second, _ | ⟨third, _ | ⟨fourth, _ | _⟩⟩⟩⟩ <;>
        first | exact unfit | skip
      obtain ⟨builtIn, rfl, rfl⟩ : ∃ b, _ = Value.bool b ∧ _ = Value.bool b := truth_like fits fourth
      refine inStep_bind (inStep_poolMake h first second third.ownership builtIn)
        fun _ p _ _ after found => ?_
      obtain ⟨heq, known⟩ := found
      subst heq
      exact inStep_pure after.twin (.node (n := .pool p) known)

end Twin

end NinjaFile
