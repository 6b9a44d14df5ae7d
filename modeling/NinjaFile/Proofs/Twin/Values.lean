import Mathlib.Data.List.Forall2
import NinjaFile.Rendering

/-!
# Values that are alike

Two runs of a script that differ in who may use the documents go in step.  A value of one
run is like a value of the other if it is the same one, except that an arena is that of the
same document.
-/

namespace NinjaFile

namespace Value

/-- Plain data without parts, and things that are nothing but themselves. -/
def isAtom : Value → Bool
  | .null | .bool _ | .int _ | .float _ | .text _ | .bytes .. => true
  | .path _ | .pathText _ | .pathBytes _ | .range .. | .ownership _ | .kind _ | .bare .. => true
  | .lookalike _ k => k.isAtom
  | _ => false

end Value

namespace Twin

/-- What values of two runs may refer to. -/
structure Scope where
  arenas : Arena → Arena → Prop
  nodes : Node → Prop
  documents : DocumentId → Prop
  sources : SourceId → Prop

/-- What there is in one scope is in the other one. -/
structure Scope.Within (c c' : Scope) : Prop where
  arenas : ∀ a a', c.arenas a a' → c'.arenas a a'
  nodes : ∀ n, c.nodes n → c'.nodes n
  documents : ∀ d, c.documents d → c'.documents d
  sources : ∀ i, c.sources i → c'.sources i

namespace Scope.Within

variable {c c' c'' : Scope}

theorem trans (h : c.Within c') (h' : c'.Within c'') : c.Within c'' where
  arenas a a' ha := h'.arenas a a' (h.arenas a a' ha)
  nodes n hn := h'.nodes n (h.nodes n hn)
  documents d hd := h'.documents d (h.documents d hd)
  sources i hi := h'.sources i (h.sources i hi)

end Scope.Within

inductive Like (c : Scope) : Value → Value → Prop where
  | atom {v : Value} (h : v.isAtom) : Like c v v
  | mapping {es fs : List (Value × Value)}
      (keys : List.Forall₂ (Like c) (es.map Prod.fst) (fs.map Prod.fst))
      (values : List.Forall₂ (Like c) (es.map Prod.snd) (fs.map Prod.snd)) :
      Like c (.mapping es) (.mapping fs)
  | list {vs ws : List Value} (h : List.Forall₂ (Like c) vs ws) : Like c (.list vs) (.list ws)
  | tuple {vs ws : List Value} (h : List.Forall₂ (Like c) vs ws) :
      Like c (.tuple vs) (.tuple ws)
  | source {i : SourceId} (h : c.sources i) : Like c (.source i) (.source i)
  | document {d : DocumentId} (h : c.documents d) :
      Like c (.object (.document d)) (.object (.document d))
  | node {n : Node} (h : c.nodes n) : Like c (.object (.ofNode n)) (.object (.ofNode n))
  | fixed {o : Object} (h : o.isFrozen) : Like c (.object o) (.object o)
  | view (view : View) : Like c (.object (.view view)) (.object (.view view))
  | arena {a a' : Arena} (h : c.arenas a a') : Like c (.object (.arena a)) (.object (.arena a'))
  | handle {n : Serial} {e : Expected} {i : Int} {a a' : Arena} (h : c.arenas a a') :
      Like c (.object (.handle ⟨n, e, a, i⟩)) (.object (.handle ⟨n, e, a', i⟩))

abbrev LikeAll (c : Scope) : List Value → List Value → Prop := List.Forall₂ (Like c)

variable {c c' : Scope} {v w : Value}

theorem Like.mono (h : Like c v w) (within : c.Within c') : Like c' v w :=
  @Like.rec c (fun v w _ => Like c' v w) (fun vs ws _ => LikeAll c' vs ws)
    (fun h => .atom h) (fun _ _ keys values => .mapping keys values) (fun _ ih => .list ih)
    (fun _ ih => .tuple ih)
    (fun h => .source (within.sources _ h)) (fun h => .document (within.documents _ h))
    (fun h => .node (within.nodes _ h)) (fun h => .fixed h) (fun view => .view view)
    (fun h => .arena (within.arenas _ _ h)) (fun h => .handle (within.arenas _ _ h))
    .nil (fun _ _ first rest => .cons first rest) v w h

theorem LikeAll.mono {vs ws : List Value} (h : LikeAll c vs ws) (within : c.Within c') :
    LikeAll c' vs ws := h.imp fun _ _ like => like.mono within

theorem likeAll_atoms {vs : List Value} (h : ∀ v ∈ vs, v.isAtom) : LikeAll c vs vs := by
  induction vs with
  | nil => exact .nil
  | cons v rest ih =>
      exact .cons (.atom (h v List.mem_cons_self)) (ih fun w hw => h w (List.mem_cons_of_mem _ hw))

/-! ## Outcomes -/

/-- Both end well with results that go together, or both fail in the same way. -/
inductive Agree {α β : Type} (Q : α → β → Prop) : Except Fault α → Except Fault β → Prop where
  | ok {a : α} {b : β} (h : Q a b) : Agree Q (.ok a) (.ok b)
  | error (fault : Fault) : Agree Q (.error fault) (.error fault)

namespace Agree

variable {α β : Type}

theorem of_eq {r r' : Except Fault α} (h : r' = r) : Agree (fun a b => b = a) r r' := by
  subst h
  cases r' with
  | ok a => exact .ok rfl
  | error fault => exact .error fault

theorem mono {Q Q' : α → β → Prop} {r : Except Fault α} {r' : Except Fault β} (h : Agree Q r r')
    (hQ : ∀ a b, Q a b → Q' a b) : Agree Q' r r' := by
  cases h with
  | ok h => exact .ok (hQ _ _ h)
  | error fault => exact .error fault

end Agree

/-! ## What is the same of values that are alike -/

namespace Like

theorem typeName_eq (h : Like c v w) : w.typeName = v.typeName := by cases h <;> rfl

theorem toArgument_eq (h : Like c v w) : w.toArgument = v.toArgument := by cases h <;> rfl

theorem isArgument_eq (h : Like c v w) : w.isArgument = v.isArgument := by cases h <;> rfl

theorem node?_eq (h : Like c v w) : w.node? = v.node? := by cases h <;> rfl

theorem whole?_eq (h : Like c v w) : w.whole? = v.whole? := by cases h <;> rfl

theorem int?_eq (h : Like c v w) : w.int? = v.int? := by
  rw [Value.int?, Value.int?, h.whole?_eq]

theorem ownershipOf_eq (h : Like c v w) : w.ownershipOf = v.ownershipOf := by cases h <;> rfl

theorem admits_eq (h : Like c v w) (e : Expected) : e.admits w = e.admits v := by
  cases h <;> cases e <;> rfl

theorem eq_of_atom (h : Like c v w) (hv : v.isAtom) : w = v := by
  cases h <;> first | rfl | cases hv

theorem eq_of_frozen {o : Object} (h : Like c (.object o) w) (ho : o.isFrozen) :
    w = .object o := by
  cases h <;> first | rfl | cases ho

theorem of_node? {n : Node} (h : Like c v w) (hn : v.node? = some n) :
    v = n.toValue ∧ w = n.toValue ∧ c.nodes n := by
  cases h with
  | node known =>
      obtain rfl : _ = n := by simpa [Value.node?] using hn
      exact ⟨rfl, rfl, known⟩
  | @atom v h => cases v <;> first | (cases h; done) | cases hn
  | @fixed o h => cases o <;> first | (cases h; done) | cases hn
  | _ => cases hn

end Like

/-! ## Items -/

/-- Items that are asked for in the same way. -/
inductive LikeItems (c : Scope) : Value.Items → Value.Items → Prop where
  | plain {vs ws : List Value} (h : LikeAll c vs ws) : LikeItems c (.plain vs) (.plain ws)
  | list {a a' : Arena} (h : c.arenas a a') : LikeItems c (.list a.statements) (.list a'.statements)
  | source {i : SourceId} (h : c.sources i) : LikeItems c (.source i) (.source i)
  | none : LikeItems c .none .none

theorem Like.items (h : Like c v w) : LikeItems c v.items w.items := by
  cases h with
  | @atom v h =>
      cases v with
      | text s =>
          refine .plain (likeAll_atoms fun v hv => ?_)
          obtain ⟨_, _, rfl⟩ := List.mem_map.mp hv
          rfl
      | bytes form content =>
          refine .plain (likeAll_atoms fun v hv => ?_)
          obtain ⟨_, _, rfl⟩ := List.mem_map.mp hv
          rfl
      | range start stop step =>
          refine .plain (likeAll_atoms fun v hv => ?_)
          obtain ⟨_, _, rfl⟩ := List.mem_map.mp hv
          rfl
      | _ => first | exact .none | cases h
  | mapping keys _ => exact .plain keys
  | list h => exact .plain h
  | tuple h => exact .plain h
  | source h => exact .source h
  | arena h => exact .list h
  | node h => rename_i n; cases n <;> exact .none
  | @fixed o h => cases o <;> first | exact .none | cases h
  | _ => exact .none

namespace LikeAll

variable {vs ws : List Value}

theorem toArguments_eq (h : LikeAll c vs ws) : Value.toArguments ws = Value.toArguments vs := by
  induction h with
  | nil => rfl
  | cons first _ ih => rw [Value.toArguments, Value.toArguments, first.toArgument_eq, ih]

theorem takeArguments (h : LikeAll c vs ws) :
    (Value.takeArguments ws).1 = (Value.takeArguments vs).1 ∧
      Option.Rel (fun x y => y.1 = x.1 ∧ LikeAll c x.2 y.2) (Value.takeArguments vs).2
        (Value.takeArguments ws).2 := by
  induction h with
  | nil => exact ⟨rfl, .none⟩
  | @cons v w vs ws first rest ih =>
      rw [Value.takeArguments, Value.takeArguments, first.toArgument_eq]
      cases v.toArgument with
      | error fault => exact ⟨rfl, .some ⟨rfl, rest⟩⟩
      | ok text => exact ⟨congrArg (text :: ·) ih.1, ih.2⟩

theorem getD (h : LikeAll c vs ws) (i : Nat) : Like c (vs.getD i .null) (ws.getD i .null) := by
  induction h generalizing i with
  | nil => exact .atom rfl
  | cons first _ ih =>
      cases i with
      | zero => exact first
      | succ i => exact ih i

theorem listItem (h : LikeAll c vs ws) (hi : Like c v w) :
    Agree (Like c) (Value.listItem vs v) (Value.listItem ws w) := by
  rw [Value.listItem, Value.listItem, Value.itemIn, Value.itemIn, h.length_eq, hi.int?_eq,
    hi.typeName_eq]
  cases v.int? with
  | none => exact .error _
  | some i =>
      dsimp only
      cases Value.place? ws.length i with
      | none =>
          dsimp only
          cases Value.checkIndex "list " i with
          | error fault => exact .error fault
          | ok _ => exact .ok (.atom rfl)
      | some place => exact .ok (h.getD place)

end LikeAll

end Twin

end NinjaFile
