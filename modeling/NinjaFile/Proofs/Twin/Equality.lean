import NinjaFile.Equality
import NinjaFile.Proofs.Twin.Looking
import NinjaFile.Script.Interpreter

/-!
# Equality of what is alike

Values are equal on one side if and only if what they are like is equal on the other one, and
they are keys on both sides or on none.
-/

namespace NinjaFile.Twin

open Action Program Store Script

variable {c : Scope} {a a' b b' v w : Value} {o o' q q' : Object}

/-! ## Identity -/

/-- Arenas of one document are the same list, and no others are. -/
def Injective (c : Scope) : Prop :=
  ∀ x x' y y', c.arenas x x' → c.arenas y y' →
    (x'.statements = y'.statements ↔ x.statements = y.statements)

theorem injective_scope {s s' : Store} (h : s.Twin s') : Injective (s.scope s') := by
  rintro _ _ _ _ ⟨d, hd, rfl, rfl⟩ ⟨e, he, rfl, rfl⟩
  have hd' := (h.hasDocument d).mpr hd
  have he' := (h.hasDocument e).mpr he
  constructor
  · intro same
    cases h.right.apart (.statements d) (.statements e) hd' he' same
    rfl
  · intro same
    cases h.left.apart (.statements d) (.statements e) hd he same
    rfl

/-- Only arenas are known by something else on the other side. -/
inductive LikeIdentity (c : Scope) : Identity → Identity → Prop where
  | same {i : Identity} (h : ∀ l, i ≠ .arena l) : LikeIdentity c i i
  | arena {x x' : Arena} (h : c.arenas x x') :
      LikeIdentity c (.arena x.statements) (.arena x'.statements)

theorem LikeIdentity.eq_iff (hc : Injective c) {i i' j j' : Identity} (hi : LikeIdentity c i i')
    (hj : LikeIdentity c j j') : i' = j' ↔ i = j := by
  cases hi with
  | same hi =>
      cases hj with
      | same => exact Iff.rfl
      | arena => exact ⟨fun h => absurd h (hi _), fun h => absurd h (hi _)⟩
  | arena hi =>
      cases hj with
      | same hj => exact ⟨fun h => absurd h.symm (hj _), fun h => absurd h.symm (hj _)⟩
      | arena hj => simpa using hc _ _ _ _ hi hj

theorem Like.identity (h : Like c v w) :
    Option.Rel (LikeIdentity c) v.identity? w.identity? := by
  cases h with
  | arena h => exact .some (.arena h)
  | @atom v h =>
      cases v <;> first | (cases h; done) | exact .none | exact .some (.same (by nofun))
  | @node n => cases n <;> exact .some (.same (by nofun))
  | @fixed o h => cases o <;> first | (cases h; done) | exact .some (.same (by nofun))
  | source | document | view | handle => exact .some (.same (by nofun))
  | _ => exact .none

section Known

variable {i j : Identity} (known : v.identity? = some i)

include known

private theorem isSame_known (other : w.identity? = some j) : v.isSame w = decide (i = j) := by
  cases v <;> first
    | (cases known; done)
    | (rw [Value.isSame.eq_def]; simp only [known, other])

private theorem isSame_unknown (other : w.identity? = none) : v.isSame w = false := by
  cases v <;> first
    | (cases known; done)
    | (rw [Value.isSame.eq_def]; simp only [known, other])

end Known

theorem isSame_eq (hc : Injective c) (ha : Like c a a') (hb : Like c b b') :
    a'.isSame b' = a.isSame b := by
  have left := ha.identity
  cases hi : a.identity? with
  | none =>
      -- Values that are no things of their own are plain data or have parts.
      cases ha with
      | @atom a =>
          cases hb with
          | atom => rfl
          | _ => cases a <;> first | (cases hi; done) | rfl
      | list | tuple | mapping => rfl
      | _ => cases hi
  | some i =>
      obtain ⟨i', hi', like⟩ : ∃ i', a'.identity? = some i' ∧ LikeIdentity c i i' := by
        rw [hi] at left
        generalize a'.identity? = found at left
        cases left with
        | some like => exact ⟨_, rfl, like⟩
      have right := hb.identity
      generalize hj : b.identity? = j, hj' : b'.identity? = j' at right
      cases right with
      | none => rw [isSame_unknown hi' hj', isSame_unknown hi hj]
      | some like' =>
          rw [isSame_known hi' hj', isSame_known hi hj]
          exact decide_eq_decide.mpr (like.eq_iff hc like')

theorem same_eq (hc : Injective c) (ho : Like c (.object o) (.object o'))
    (hq : Like c (.object q) (.object q')) : o'.same q' = o.same q := isSame_eq hc ho hq

/-! ## Equality -/

private theorem sameNumber?_eq (ha : Like c a a') (hb : Like c b b') :
    Value.sameNumber? a' b' = Value.sameNumber? a b := by
  cases ha with
  | @atom a =>
      cases hb with
      | atom => rfl
      | _ => cases a <;> rfl
  | _ =>
      cases hb with
      | @atom b => cases b <;> rfl
      | _ => rfl

section Parts

variable {f g : Object → Object → Bool}

/-- A value is equal to what it is like what it was equal to. -/
abbrev Meets (c : Scope) (f g : Object → Object → Bool) (v w : Value) : Prop :=
  ∀ b b', Like c b b' → Value.sameWith g w b' = Value.sameWith f v b

private theorem sameAll_eq {vs ws bs bs' : List Value} (h : List.Forall₂ (Meets c f g) vs ws)
    (hb : LikeAll c bs bs') : Value.sameAll g ws bs' = Value.sameAll f vs bs := by
  induction h generalizing bs bs' with
  | nil => cases hb <;> rfl
  | cons first _ ih =>
      cases hb with
      | nil => rfl
      | cons hb rest => rw [Value.sameAll, Value.sameAll, first _ _ hb, ih rest]

private theorem any_eq {v w x y : Value} {bs bs' : List (Value × Value)} (key : Meets c f g v w)
    (value : Meets c f g x y) (keys : LikeAll c (bs.map Prod.fst) (bs'.map Prod.fst))
    (values : LikeAll c (bs.map Prod.snd) (bs'.map Prod.snd)) :
    (bs'.any fun e => Value.sameWith g w e.1 && Value.sameWith g y e.2) =
      bs.any fun e => Value.sameWith f v e.1 && Value.sameWith f x e.2 := by
  induction bs generalizing bs' with
  | nil =>
      obtain rfl : bs' = [] := List.map_eq_nil_iff.mp (List.forall₂_nil_left_iff.mp keys)
      rfl
  | cons e bs ih =>
      cases bs' with
      | nil => cases keys
      | cons e' bs' =>
          obtain ⟨hk, keys⟩ := List.forall₂_cons.mp keys
          obtain ⟨hv, values⟩ := List.forall₂_cons.mp values
          rw [List.any_cons, List.any_cons, key _ _ hk, value _ _ hv, ih keys values]

private theorem sameEntries_eq {es fs bs bs' : List (Value × Value)}
    (keys : List.Forall₂ (Meets c f g) (es.map Prod.fst) (fs.map Prod.fst))
    (values : List.Forall₂ (Meets c f g) (es.map Prod.snd) (fs.map Prod.snd))
    (hk : LikeAll c (bs.map Prod.fst) (bs'.map Prod.fst))
    (hv : LikeAll c (bs.map Prod.snd) (bs'.map Prod.snd)) :
    Value.sameEntries g fs bs' = Value.sameEntries f es bs := by
  induction es generalizing fs with
  | nil =>
      obtain rfl : fs = [] := List.map_eq_nil_iff.mp (List.forall₂_nil_left_iff.mp keys)
      rfl
  | cons e es ih =>
      cases fs with
      | nil => cases keys
      | cons e' fs =>
          obtain ⟨key, keys⟩ := List.forall₂_cons.mp keys
          obtain ⟨value, values⟩ := List.forall₂_cons.mp values
          rw [Value.sameEntries, Value.sameEntries, ih keys values]
          exact congrArg (· && _) (any_eq key value hk hv)

variable (hc : Injective c)

include hc

private theorem meets_of_parts (hv : Like c v w)
    (parts : ∀ b b', Like c b b' → Value.sameNumber? v b = none → Value.sameNumber? w b' = none →
      w.isSame b' = v.isSame b → Value.sameWith g w b' = Value.sameWith f v b) :
    Meets c f g v w := by
  intro b b' hb
  have number' := sameNumber?_eq hv hb
  cases number : Value.sameNumber? v b with
  | none => exact parts b b' hb number (number'.trans number) (isSame_eq hc hv hb)
  | some answer =>
      rw [Value.sameWith.eq_def, Value.sameWith.eq_def, number', number]

private theorem meets_atom (hv : v.isAtom) : Meets c f g v v := by
  refine meets_of_parts hc (.atom hv) fun b b' hb number number' same => ?_
  rw [Value.sameWith.eq_def, Value.sameWith.eq_def, number, number']
  cases hb with
  | @atom b hb => cases v <;> first | (cases hv; done) | (cases b <;> first | (cases hb; done) | rfl)
  | _ => cases v <;> first | (cases hv; done) | exact same

private theorem meets_object
    (objects : ∀ o o' q q', Like c (.object o) (.object o') → Like c (.object q) (.object q') →
      g o' q' = f o q) (ho : Like c (.object o) (.object o')) :
    Meets c f g (.object o) (.object o') := by
  refine meets_of_parts hc ho fun b b' hb number number' same => ?_
  rw [Value.sameWith.eq_def, Value.sameWith.eq_def, number, number']
  have like := hb
  cases hb with
  | @atom b hb => cases b <;> first | (cases hb; done) | exact same
  | mapping | list | tuple | source => exact same
  | _ => exact objects _ _ _ _ ho like

private theorem meets_list {vs ws : List Value} (like : LikeAll c vs ws)
    (h : List.Forall₂ (Meets c f g) vs ws) : Meets c f g (.list vs) (.list ws) := by
  refine meets_of_parts hc (.list like) fun b b' hb number number' same => ?_
  rw [Value.sameWith.eq_def, Value.sameWith.eq_def, number, number']
  cases hb with
  | list hb => exact sameAll_eq h hb
  | @atom b hb => cases b <;> first | (cases hb; done) | exact same
  | _ => exact same

private theorem meets_tuple {vs ws : List Value} (like : LikeAll c vs ws)
    (h : List.Forall₂ (Meets c f g) vs ws) : Meets c f g (.tuple vs) (.tuple ws) := by
  refine meets_of_parts hc (.tuple like) fun b b' hb number number' same => ?_
  rw [Value.sameWith.eq_def, Value.sameWith.eq_def, number, number']
  cases hb with
  | tuple hb => exact sameAll_eq h hb
  | @atom b hb => cases b <;> first | (cases hb; done) | exact same
  | _ => exact same

private theorem meets_mapping {es fs : List (Value × Value)}
    (like : Like c (.mapping es) (.mapping fs))
    (keys : List.Forall₂ (Meets c f g) (es.map Prod.fst) (fs.map Prod.fst))
    (values : List.Forall₂ (Meets c f g) (es.map Prod.snd) (fs.map Prod.snd)) :
    Meets c f g (.mapping es) (.mapping fs) := by
  refine meets_of_parts hc like fun b b' hb number number' same => ?_
  have size : fs.length = es.length := by simpa using keys.length_eq.symm
  rw [Value.sameWith.eq_def, Value.sameWith.eq_def, number, number']
  cases hb with
  | @mapping bs bs' hk hv =>
      have size' : bs'.length = bs.length := by simpa using hk.length_eq.symm
      dsimp only
      rw [size, size', sameEntries_eq keys values hk hv]
  | @atom b hb => cases b <;> first | (cases hb; done) | exact same
  | _ => exact same

private theorem meets_source {i : SourceId} (hi : c.sources i) :
    Meets c f g (.source i) (.source i) := by
  refine meets_of_parts hc (.source hi) fun b b' hb number number' same => ?_
  rw [Value.sameWith.eq_def, Value.sameWith.eq_def, number, number']
  cases hb with
  | @atom b hb => cases b <;> first | (cases hb; done) | exact same
  | _ => exact same

/-- Values are equal if what they are like is, provided that this holds of objects. -/
theorem meets_of_like
    (objects : ∀ o o' q q', Like c (.object o) (.object o') → Like c (.object q) (.object q') →
      g o' q' = f o q) (ha : Like c v w) : Meets c f g v w := by
  have object {o o' : Object} (ho : Like c (.object o) (.object o')) :=
    meets_object hc objects ho
  exact @Like.rec c (fun v w _ => Meets c f g v w)
    (fun vs ws _ => List.Forall₂ (Meets c f g) vs ws) (fun h => meets_atom hc h)
    (fun keys values => meets_mapping hc (.mapping keys values))
    (fun like => meets_list hc like) (fun like => meets_tuple hc like) (fun h => meets_source hc h)
    (fun h => object (.document h)) (fun h => object (.node h)) (fun h => object (.fixed h))
    (fun view => object (.view view)) (fun h => object (.arena h)) (fun h => object (.handle h))
    .nil (fun _ _ first rest => .cons first rest) v w ha

end Parts

/-! ### Objects -/

section Objects

variable {s s' : Store}

private theorem handle_stored (h : s.Tidy) (k : Handle) :
    (Value.object (.handle k)).stored? s "statements" = some (.object (.arena k.arena)) ∧
      (Value.object (.handle k)).stored? s "index" = some (.int k.index) := by
  rw [h.stored?, h.stored?]
  exact ⟨rfl, rfl⟩

/-- Attributes are compared for handles alone, of which they are arenas and numbers. -/
private theorem sameObject_eq (h : s.Twin s') {f g : Value → Value → Bool}
    (numbers : ∀ i j, g (.int i) (.int j) = f (.int i) (.int j))
    (ho : Like (s.scope s') (.object o) (.object o'))
    (hq : Like (s.scope s') (.object q) (.object q')) :
    Value.sameObject s' g o' q' = Value.sameObject s f o q := by
  have same := same_eq (injective_scope h) ho hq
  cases ho with
  | atom ho => cases ho
  | @handle _ _ i x x' hx =>
      cases hq with
      | atom hq => cases hq
      | @handle _ _ j y y' hy =>
          have lists := isSame_eq (injective_scope h) (.arena hx) (.arena hy)
          simp only [Value.sameObject, Value.bothHave, handle_stored h.left, handle_stored h.right,
            numbers]
          rw [lists]
      | @node n => cases n <;> exact same
      | @fixed q hq => cases q <;> first | (cases hq; done) | exact same
      | _ => exact same
  | @node n => cases n <;> exact same
  | @fixed o ho =>
      cases hq with
      | atom hq => cases hq
      | @fixed q hq =>
          cases o <;> first | (cases ho; done) | (cases q <;> first | (cases hq; done) | rfl)
      | @node n => cases o <;> first | (cases ho; done) | (cases n <;> exact same)
      | _ => cases o <;> first | (cases ho; done) | exact same
  | _ => exact same

theorem sameTo_eq (h : s.Twin s') (depth : Nat) (ha : Like (s.scope s') a a')
    (hb : Like (s.scope s') b b') : Value.sameTo s' depth a' b' = Value.sameTo s depth a b := by
  have hc := injective_scope h
  cases depth with
  | zero => exact meets_of_like hc (fun _ _ _ _ ho hq => same_eq hc ho hq) ha b b' hb
  | succ depth =>
      have numbers (i j : Int) : Value.sameTo s' depth (.int i) (.int j) =
          Value.sameTo s depth (.int i) (.int j) := by cases depth <;> rfl
      exact meets_of_like hc (fun _ _ _ _ ho hq => sameObject_eq h numbers ho hq) ha b b' hb

/-! ### Keys -/

theorem unhashable?_eq (h : s.Twin s') (hv : Like (s.scope s') v w) :
    Value.unhashable? s' w = Value.unhashable? s v := by
  refine @Like.rec (s.scope s') (fun v w _ => Value.unhashable? s' w = Value.unhashable? s v)
    (fun vs ws _ => Value.firstUnhashable? s' ws = Value.firstUnhashable? s vs) ?_
    (fun _ _ _ _ => rfl) (fun _ _ => rfl) (fun _ ih => ih) (fun _ => rfl) (fun _ => rfl) ?_ ?_
    (fun _ => rfl) (fun _ => rfl) ?_ rfl ?_ v w hv
  · intro v hv
    cases v with
    | bytes form => cases form <;> rfl
    | _ => first | rfl | cases hv
  · intro n _
    cases n <;> rfl
  · intro o ho
    cases o <;> first | rfl | cases ho
  · intro n e i x x' _
    simp only [Value.unhashable?, handle_stored h.left, handle_stored h.right]
  · intro v w vs ws _ _ first rest
    rw [Value.firstUnhashable?, Value.firstUnhashable?, first, rest]

theorem inStep_comparison (h : s.Twin s') (ha : Like (s.scope s') a a')
    (hb : Like (s.scope s') b b') :
    InStep Still (comparison a b) (comparison a' b') s s' fun v w t t' =>
      Like (t.scope t') v w := by
  have answer (c : Scope) (same : Bool) {hash : Value} (hh : hash.isAtom) :
      Like c (.mapping [(.text "eq", .bool same), (.text "hash", hash)])
        (.mapping [(.text "eq", .bool same), (.text "hash", hash)]) :=
    .mapping (.cons (.atom rfl) (.cons (.atom rfl) .nil)) (.cons (.atom rfl) (.cons (.atom hh) .nil))
  refine inStep_bind (inStep_read h (Q := fun x y _ _ => y = x) (sameTo_eq h _ ha hb))
    fun _ same t t' after heq => ?_
  subst heq
  have within := after.within h
  cases same with
  | false => exact inStep_pure after.twin (answer _ false rfl)
  | true =>
      have keys : (Value.unhashable? t' a' <|> Value.unhashable? t' b') =
          (Value.unhashable? t a <|> Value.unhashable? t b) := by
        rw [unhashable?_eq after.twin (ha.mono within), unhashable?_eq after.twin (hb.mono within)]
      refine inStep_bind (inStep_read after.twin (Q := fun x y _ _ => y = x) keys)
        fun _ key _ _ after heq => ?_
      subst heq
      cases key with
      | none => exact inStep_pure after.twin (answer _ true rfl)
      | some typeName => exact inStep_fail after.twin _

end Objects

end NinjaFile.Twin
