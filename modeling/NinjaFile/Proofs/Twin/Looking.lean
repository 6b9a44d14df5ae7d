import NinjaFile.Proofs.Twin.Steps
import NinjaFile.Script.Parameter

/-!
# Looking at twins

Conversions, items, attributes and handles: what looks at twins in the same way finds
things that are alike.
-/

namespace NinjaFile.Twin

open Action Program Store

variable {s s' : Store} {v w : Value}

/-! ## Lists -/

section Lists

variable {a a' : Arena}

theorem opens_of_arenas (h : s.Twin s') (ha : (s.scope s').arenas a a') :
    s.Open a.statements ∧ s'.Open a'.statements ∧
      LikeAll (s.scope s') (s.list a.statements).items (s'.list a'.statements).items := by
  obtain ⟨d, hd, rfl, rfl⟩ := ha
  have place : s.HasPlace (.statements d) := hd
  exact ⟨h.left.open_spot place, h.right.open_spot ((h.hasPlace _).mpr place), h.held _ place⟩

theorem inStep_snapshot (h : s.Twin s') (ha : (s.scope s').arenas a a') :
    InStep Still a.statements.snapshot a'.statements.snapshot s s' fun vs ws t t' =>
      LikeAll (t.scope t') vs ws := by
  obtain ⟨left, right, like⟩ := opens_of_arenas h ha
  exact inStep_of_alone (ListId.alone_snapshot left) (ListId.alone_snapshot right) (.refl h) like

theorem inStep_length (h : s.Twin s') (ha : (s.scope s').arenas a a') :
    InStep Still a.statements.length a'.statements.length s s' fun n m _ _ => m = n := by
  obtain ⟨left, right, like⟩ := opens_of_arenas h ha
  exact inStep_of_alone (ListId.alone_length left) (ListId.alone_length right) (.refl h)
    like.length_eq.symm

theorem inStep_item (h : s.Twin s') (ha : (s.scope s').arenas a a') (hi : Like (s.scope s') v w) :
    InStep Still (a.statements.item v) (a'.statements.item w) s s' fun v w t t' =>
      Like (t.scope t') v w := by
  obtain ⟨left, right, like⟩ := opens_of_arenas h ha
  rw [InStep, ListId.alone_item left, ListId.alone_item right]
  exact ends_of_agree h (like.listItem hi)

end Lists

/-! ## Sources -/

section Sources

variable {i : SourceId}

theorem After.modifySource (h : s.Twin s') {f f' : Source → Source}
    (like : LikeSource (s.scope s') (f (s.source i)) (f' (s'.source i))) :
    After Still s s' (s.modifySource i f) (s'.modifySource i f') :=
  ⟨h.modifySource like, ⟨_, _, _, _, Table.size_modify _ _ _, rfl⟩,
    ⟨_, _, _, _, Table.size_modify _ _ _, rfl⟩, [], by simp [Store.modifySource], by simp [Store.modifySource]⟩

theorem inStep_takeArguments (h : s.Twin s') (hi : i.index < s.sources.size) :
    InStep Still i.takeArguments i.takeArguments s s' fun r r' _ _ => r' = r := by
  have like := h.source i hi
  rw [InStep, SourceId.takeArguments, alone_update, alone_update]
  dsimp only
  rw [like.state]
  split
  · exact .ok (.refl h) rfl
  · have taken := like.items.takeArguments
    cases hl : Value.takeArguments (s.source i).items with
    | mk texts rest =>
      cases hr : Value.takeArguments (s'.source i).items with
      | mk texts' rest' =>
        rw [hl, hr] at taken
        obtain ⟨rfl, rest⟩ := taken
        cases rest with
        | none =>
            exact .ok (.modifySource h ⟨.nil, like.state, like.raises⟩) rfl
        | @some x y rest =>
            obtain ⟨fault, left⟩ := x
            obtain ⟨fault', left'⟩ := y
            obtain ⟨rfl, rest⟩ := rest
            exact .ok (.modifySource h ⟨rest, like.state, like.raises⟩) rfl

theorem inStep_close (h : s.Twin s') (hi : i.index < s.sources.size) :
    InStep Still i.close i.close s s' fun _ _ _ _ => True := by
  have marked {s s' : Store} (h : s.Twin s') (hi : i.index < s.sources.size) (state : SourceState) :
      InStep Still (.modify fun s => s.modifySource i fun src => { src with state := state })
        (.modify fun s => s.modifySource i fun src => { src with state := state }) s s'
        fun _ _ _ _ => True :=
    have like := h.source i hi
    inStep_of_alone rfl rfl (.modifySource h ⟨like.items, rfl, like.raises⟩) trivial
  have like := h.source i hi
  have requested {t t' : Store} (h : t.Twin t') :
      InStep Still (Program.request i) (Program.request i) t t' fun _ _ _ _ => True :=
    inStep_of_alone rfl rfl (.refl h) trivial
  rw [SourceId.close]
  refine inStep_bind (inStep_read h (Q := fun x y _ _ => y.state = x.state ∧ y.raises = x.raises)
    ⟨like.state, like.raises⟩) fun x y t t' after found => ?_
  obtain ⟨state, raises⟩ := found
  rw [state, raises]
  split
  · exact inStep_pure after.twin trivial
  · have hi := after.left.source hi
    refine inStep_bind (marked after.twin hi _) fun _ _ t t' after _ => ?_
    have hi := after.left.source hi
    refine inStep_bind (requested after.twin) fun _ _ t t' after _ => ?_
    have hi := after.left.source hi
    refine inStep_bind (marked after.twin hi _) fun _ _ t t' after _ => ?_
    split
    · exact inStep_pure after.twin trivial
    · exact inStep_fail after.twin _

theorem inStep_sourceArguments (h : s.Twin s') (hi : i.index < s.sources.size) :
    InStep Still i.arguments i.arguments s s' fun xs ys _ _ => ys = xs := by
  rw [SourceId.arguments]
  refine inStep_bind (inStep_takeArguments h hi) fun r r' t t' after heq => ?_
  have hi := after.left.source hi
  refine inStep_bind (inStep_same after.twin heq) fun xs ys t t' after heq => ?_
  have hi := after.left.source hi
  exact inStep_bind (inStep_close after.twin hi) fun _ _ t t' after _ => inStep_pure after.twin heq

end Sources

/-! ## Items and arguments -/

theorem inStep_toArgument (h : s.Twin s') (hv : Like (s.scope s') v w) :
    InStep Still (ofExcept v.toArgument) (ofExcept w.toArgument) s s' fun x y _ _ => y = x :=
  inStep_same h hv.toArgument_eq

theorem inStep_arguments (h : s.Twin s') (hv : Like (s.scope s') v w) :
    InStep Still v.arguments w.arguments s s' fun xs ys _ _ => ys = xs := by
  by_cases null : v = .null
  · subst null
    rw [hv.eq_of_atom rfl]
    exact inStep_pure h rfl
  · have null' : w ≠ .null := by
      rintro rfl
      cases hv
      exact null rfl
    rw [Value.arguments.eq_2 v null, Value.arguments.eq_2 w null', hv.isArgument_eq, hv.typeName_eq]
    split
    · exact inStep_bind (inStep_toArgument h hv) fun x y t t' after heq =>
        inStep_pure after.twin (by rw [heq])
    · have items := hv.items
      generalize v.items = x at items ⊢
      generalize w.items = y at items ⊢
      cases items with
      | plain like => exact inStep_same h like.toArguments_eq
      | list ha =>
          exact inStep_bind (inStep_snapshot h ha) fun vs ws t t' after like =>
            inStep_same after.twin like.toArguments_eq
      | source hi => exact inStep_sourceArguments h hi
      | none => exact inStep_fail h _

end NinjaFile.Twin

/-!
## Calls side by side

Arguments that are alike are matched with parameters in the same way, or do not fit for
the same reason.
-/

namespace NinjaFile.Twin

open Action Program Store Script

/-! ## Matching -/

/-- Arguments that are handed over by name. -/
abbrev LikeNamed (c : Scope) : List (String × Value) → List (String × Value) → Prop :=
  List.Forall₂ fun x y => y.1 = x.1 ∧ Like c x.2 y.2

section Matching

variable {c : Scope} {args args' : List Value} {named named' : List (String × Value)}

theorem LikeNamed.lookup (h : LikeNamed c named named') (key : String) :
    Option.Rel (Like c) (named.lookup key) (named'.lookup key) := by
  induction h with
  | nil => exact .none
  | @cons x y named named' first _ ih =>
      obtain ⟨name, v⟩ := x
      obtain ⟨name', w⟩ := y
      obtain ⟨rfl, like⟩ := first
      rw [List.lookup_cons, List.lookup_cons]
      cases key == name' with
      | true => exact .some like
      | false => exact ih

theorem LikeNamed.namedFault?_eq (h : LikeNamed c named named') (m : Callable) (given : Nat) :
    m.namedFault? given named' = m.namedFault? given named := by
  rw [Callable.namedFault?, Callable.namedFault?]
  induction h with
  | nil => rfl
  | @cons x y named named' first _ ih =>
      obtain ⟨name, v⟩ := x
      obtain ⟨name', w⟩ := y
      obtain ⟨rfl, -⟩ := first
      rw [List.findSome?_cons, List.findSome?_cons, ih]

/-- Values of parameters that may be left out are plain data. -/
def PlainParameters (parameters : List Parameter) : Prop :=
  ∀ p ∈ parameters, ∀ v, p.2 = some v → v.isAtom

theorem fallback?_rel (h : LikeNamed c named named') {p : Parameter}
    (hp : ∀ v, p.2 = some v → v.isAtom) :
    Option.Rel (Like c) (Callable.fallback? named p) (Callable.fallback? named' p) := by
  have given := h.lookup p.1
  rw [Callable.fallback?, Callable.fallback?]
  generalize named.lookup p.1 = found at given ⊢
  generalize named'.lookup p.1 = found' at given ⊢
  cases given with
  | some like => exact .some like
  | none =>
      cases hv : p.2 with
      | none => exact .none
      | some v => exact .some (.atom (hp v hv))

theorem fallbacks_like (h : LikeNamed c named named') {parameters : List Parameter}
    (plain : PlainParameters parameters) :
    LikeAll c (parameters.filterMap (Callable.fallback? named))
      (parameters.filterMap (Callable.fallback? named')) := by
  induction parameters with
  | nil => exact .nil
  | cons p rest ih =>
      have rel := fallback?_rel h (plain p List.mem_cons_self)
      have others := ih fun q hq => plain q (List.mem_cons_of_mem p hq)
      rw [List.filterMap_cons, List.filterMap_cons]
      generalize Callable.fallback? named p = found at rel
      generalize Callable.fallback? named' p = found' at rel
      cases rel with
      | none => exact others
      | some like => exact .cons like others

theorem bind_agree (m : Callable) (plain : PlainParameters m.parameters)
    (hargs : LikeAll c args args') (hnamed : LikeNamed c named named') :
    Agree (LikeAll c) (m.bind args named) (m.bind args' named') := by
  have unfilled : PlainParameters (m.parameters.drop args.length) :=
    fun p hp => plain p (List.mem_of_mem_drop hp)
  have missing : ((m.parameters.drop args.length).filter fun p =>
      (Callable.fallback? named' p).isNone) =
        (m.parameters.drop args.length).filter fun p => (Callable.fallback? named p).isNone := by
    refine List.filter_congr fun p hp => ?_
    have rel := fallback?_rel hnamed (unfilled p hp)
    generalize Callable.fallback? named p = found at rel ⊢
    generalize Callable.fallback? named' p = found' at rel ⊢
    cases rel <;> rfl
  rw [Callable.bind, Callable.bind, hnamed.namedFault?_eq, ← hargs.length_eq]
  cases m.namedFault? (args.length + 1) named with
  | some fault => exact .error fault
  | none =>
      dsimp only
      split
      · exact .error _
      · rw [missing]
        split
        · exact .ok (List.rel_append hargs (fallbacks_like hnamed unfilled))
        · exact .error _

end Matching

/-! ## Calls -/

/-- What can be called in the same way on either side, with what it may do to a store. -/
structure LikeCallable (R : Store → Store → Prop) (s s' : Store) (m m' : Callable) : Prop where
  same : m' = { m with run := m'.run }
  plain : PlainParameters m.parameters
  run : ∀ vs ws, LikeAll (s.scope s') vs ws →
    InStep R (m.run vs) (m'.run ws) s s' fun v w t t' => Like (t.scope t') v w

namespace LikeCallable

variable {R : Store → Store → Prop} {s s' : Store} {m m' : Callable} {args args' : List Value}
  {named named' : List (String × Value)}

theorem call [Precedes Still R] (hm : LikeCallable R s s' m m') (h : s.Twin s')
    (hargs : LikeAll (s.scope s') args args') (hnamed : LikeNamed (s.scope s') named named') :
    InStep R (m.call args named) (m'.call args' named') s s' fun v w t t' =>
      Like (t.scope t') v w := by
  have agree := bind_agree m hm.plain hargs hnamed
  have bound : m'.bind args' named' = m.bind args' named' := by
    rw [hm.same]
    rfl
  rw [Callable.call, Callable.call, bound]
  generalize m.bind args named = r at agree
  generalize m.bind args' named' = r' at agree
  cases agree with
  | ok like => exact hm.run _ _ like
  | error fault => exact inStep_fail h fault

variable (owner name : String)

theorem nullary {run run' : Action Value}
    (h : InStep R run run' s s' fun v w t t' => Like (t.scope t') v w) :
    LikeCallable R s s' (.nullary owner name run) (.nullary owner name run') :=
  ⟨rfl, nofun, fun _ _ _ => h⟩

theorem unary (parameter : String) {run run' : Value → Action Value}
    (h : ∀ v w, Like (s.scope s') v w →
      InStep R (run v) (run' w) s s' fun v w t t' => Like (t.scope t') v w) :
    LikeCallable R s s' (.unary owner name parameter run) (.unary owner name parameter run') :=
  ⟨rfl, by simp [PlainParameters, Callable.unary, needed], fun _ _ like => h _ _ (like.getD 0)⟩

theorem binary (first second : String) {run run' : Value → Value → Action Value}
    (h : ∀ v w x y, Like (s.scope s') v w → Like (s.scope s') x y →
      InStep R (run v x) (run' w y) s s' fun v w t t' => Like (t.scope t') v w) :
    LikeCallable R s s' (.binary owner name first second run)
      (.binary owner name first second run') :=
  ⟨rfl, by simp [PlainParameters, Callable.binary, needed],
    fun _ _ like => h _ _ _ _ (like.getD 0) (like.getD 1)⟩

end LikeCallable

end NinjaFile.Twin
