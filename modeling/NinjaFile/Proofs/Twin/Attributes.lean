import NinjaFile.Proofs.Twin.Looking

/-!
# Attributes of twins

Attributes of values that are alike are alike, except for those that tell who may use
something: ownerships, configurations, and lists with a guard of their own.
-/

namespace NinjaFile.Twin

open Action Program Store

/-- The names of attributes that tell who may use something. -/
def ownerNames : List String :=
  ["ownership", "config", "_statements"] ++ (Node.build ⟨0⟩).parts.map Part.name

/-- What two runs have for an attribute. -/
inductive Shown (c : Scope) (name : String) : Value → Value → Prop where
  | like {v w : Value} (h : Like c v w) : Shown c name v w
  | list (h : name ∈ ownerNames) (l l' : ListId) :
      Shown c name (.object (.list l)) (.object (.list l'))
  | ownership (h : name ∈ ownerNames) (o o' : Ownership) :
      Shown c name (.ownership o) (.ownership o')
  | config (h : name ∈ ownerNames) (flag flag' : Bool) (rest : List (Value × Value)) :
      Shown c name (.mapping ((.text "thread_safe", .bool flag) :: rest))
        (.mapping ((.text "thread_safe", .bool flag') :: rest))

namespace Shown

variable {c : Scope} {name : String} {v w : Value}

theorem typeName_eq (h : Shown c name v w) : w.typeName = v.typeName := by
  cases h with
  | like h => exact h.typeName_eq
  | _ => rfl

theorem like_of_not_mem (h : Shown c name v w) (hname : name ∉ ownerNames) : Like c v w := by
  cases h with
  | like h => exact h
  | _ h => exact absurd h hname

end Shown

/-! ## Fields -/

section Fields

variable {s s' : Store} {v w : Value} {name : String}

private theorem atom_field (hv : v.isAtom) (s s' : Store) (name : String) :
    Option.Rel (Shown (s.scope s') name) (v.field? s name) (v.field? s' name) := by
  rw [Value.field?.eq_def, Value.field?.eq_def]
  split <;>
    first | exact .none | exact .some (.like (.atom rfl)) | exact .some (.like (.atom hv)) | cases hv

private theorem like_logger (c : Scope) {a a' : Arena} (view : a'.view = a.view) :
    Like c a.logger a'.logger := by
  rw [Arena.logger, Arena.logger, view]
  cases a.view with
  | none => exact .atom rfl
  | some view => exact .view view

private theorem kind_field (c : Scope) (name : String) (k : Option Kind) :
    Option.Rel (Shown c name) (k.map .kind) (k.map .kind) := by
  cases k with
  | none => exact .none
  | some k => exact .some (.like (.atom rfl))

private theorem document_field (h : s.Twin s') {d : DocumentId} (hd : s.HasDocument d)
    (name : String) :
    Option.Rel (Shown (s.scope s') name) ((Object.document d).field? s name)
      ((Object.document d).field? s' name) := by
  have like := h.document d hd
  rw [Object.field?.eq_def, Object.field?.eq_def]
  split <;> first | contradiction | rename_i heq; cases heq | skip
  · have settings := like.settings
    rw [DocumentRecord.config, DocumentRecord.config]
    generalize (s.document d).settings = left at settings
    generalize (s'.document d).settings = right at settings
    cases settings with
    | intro flag flag' rest => exact .some (.config (by decide) flag flag' _)
  · exact .some (.ownership (by decide) _ _)
  · exact .some (.like (like_logger _ like.view))
  · exact .some (.like (.arena ⟨d, hd, rfl, rfl⟩))
  · rw [like.phony]
    exact .some (.like (.node (n := .rule _) (h.left.phony d hd)))
  · rw [like.console]
    exact .some (.like (.node (n := .pool _) (h.left.console d hd)))
  · exact kind_field ..
  · exact .none

theorem like_of_fixedField {o : Object} {name : String} {v : Value} (h : o.fixedField? name = some v)
    (c : Scope) : Like c v v := by
  rw [Object.fixedField?.eq_def] at h
  split at h <;> cases h <;> first
    | exact .atom rfl
    | exact .tuple (likeAll_atoms (List.forall_mem_map.mpr fun _ _ => rfl))

private theorem fixed_field {o : Object} (ho : o.isFrozen) (s s' : Store) (name : String) :
    Option.Rel (Shown (s.scope s') name) (o.field? s name) (o.field? s' name) := by
  rw [Object.field?.eq_def, Object.field?.eq_def]
  split <;> first | cases ho | skip
  · exact kind_field ..
  · have plain : o.node? = none := by cases o <;> first | rfl | cases ho
    rw [plain]
    cases hfield : o.fixedField? name with
    | none => exact .none
    | some v => exact .some (.like (like_of_fixedField hfield _))

private theorem view_field (view : View) (s s' : Store) (name : String) :
    Option.Rel (Shown (s.scope s') name) ((Object.view view).field? s name)
      ((Object.view view).field? s' name) := by
  rw [Object.field?.eq_def, Object.field?.eq_def]
  split <;> first | contradiction | exact .some (.like (.atom rfl)) | exact .none

private theorem field_ofNode (s : Store) (n : Node) (hk : name ≠ "kind") :
    (Object.ofNode n).field? s name =
      match n.partNamed? name with
      | some q => some (.object (.list (s.part n q)))
      | none => n.field? s name := by
  cases n <;> (rw [Object.field?.eq_def]; split) <;> first | contradiction | rfl

private theorem rest_field (h : s.Twin s') {n : Node} (hn : s.HasNode n) (name : String) :
    Option.Rel (Shown (s.scope s') name) (n.field? s name) (n.field? s' name) := by
  have fields := h.fields n hn
  rw [Node.field?.eq_def, Node.field?.eq_def]
  split
  · rw [show (s'.rule _).name = (s.rule _).name from congrArg Prod.fst fields]
    exact .some (.like (.atom rfl))
  · rw [show (s'.pool _).name = (s.pool _).name from congrArg Prod.fst fields]
    exact .some (.like (.atom rfl))
  · rw [show (s'.pool _).builtIn = (s.pool _).builtIn from congrArg Prod.snd fields]
    exact .some (.like (.atom rfl))
  · rw [show (s'.build _).ruleName = (s.build _).ruleName from congrArg Prod.fst fields]
    exact .some (.like (.atom rfl))
  · exact .none

private theorem node_field (h : s.Twin s') {n : Node} (hn : s.HasNode n) (name : String) :
    Option.Rel (Shown (s.scope s') name) ((Object.ofNode n).field? s name)
      ((Object.ofNode n).field? s' name) := by
  by_cases hk : name = "kind"
  · subst hk
    cases n <;> exact kind_field _ _ (some _)
  · rw [field_ofNode s n hk, field_ofNode s' n hk]
    cases hpart : n.partNamed? name with
    | none => exact rest_field h hn name
    | some q =>
        have named : q.name = name := by
          rw [Node.partNamed?] at hpart
          simpa using List.find?_some hpart
        refine .some (.list ?_ _ _)
        rw [← named]
        cases q with
        | bindings => decide
        | paths slot => cases slot <;> decide

private theorem arena_field (h : s.Twin s') {a a' : Arena} (ha : (s.scope s').arenas a a')
    (name : String) :
    Option.Rel (Shown (s.scope s') name) ((Object.arena a).field? s name)
      ((Object.arena a').field? s' name) := by
  by_cases ownership : name = "ownership"
  · subst ownership
    exact .some (.ownership (by decide) _ _)
  by_cases logger : name = "logger"
  · subst logger
    obtain ⟨d, hd, rfl, rfl⟩ := ha
    exact .some (.like (like_logger _ (h.document d hd).view))
  by_cases statements : name = "_statements"
  · subst statements
    exact .some (.list (by decide) _ _)
  have none (s : Store) (a : Arena) : (Object.arena a).field? s name = none := by
    rw [Object.field?.eq_def]
    split <;> first | contradiction | rfl
  rw [none, none]
  exact .none

private theorem handle_field (s s' : Store) {n : Serial} {e : Expected} {i : Int} {a a' : Arena}
    (ha : (s.scope s').arenas a a') (name : String) :
    Option.Rel (Shown (s.scope s') name) ((Object.handle ⟨n, e, a, i⟩).field? s name)
      ((Object.handle ⟨n, e, a', i⟩).field? s' name) := by
  by_cases statements : name = "statements"
  · subst statements
    exact .some (.like (.arena ha))
  by_cases index : name = "index"
  · subst index
    exact .some (.like (.atom rfl))
  have none (s : Store) (h : Handle) : (Object.handle h).field? s name = none := by
    rw [Object.field?.eq_def]
    split <;> first | contradiction | rfl
  rw [none, none]
  exact .none

theorem field?_shown (h : s.Twin s') (hv : Like (s.scope s') v w) (name : String) :
    Option.Rel (Shown (s.scope s') name) (v.field? s name) (w.field? s' name) := by
  cases hv with
  | atom hv => exact atom_field hv s s' name
  | document hd => exact document_field h hd name
  | node hn => exact node_field h hn name
  | fixed ho => exact fixed_field ho s s' name
  | view view => exact view_field view s s' name
  | arena ha => exact arena_field h ha name
  | handle ha => exact handle_field s s' ha name
  | _ => exact .none

end Fields

/-! ## Members -/

section Members

variable {s s' : Store} {v w : Value}

theorem inStep_storedMember (h : s.Twin s') (hv : Like (s.scope s') v w) (name : String) :
    InStep Still (v.storedMember name) (w.storedMember name) s s' fun x y t t' =>
      Shown (t.scope t') name x y := by
  refine inStep_bind (inStep_read h
    (Q := fun x y t t' => Option.Rel (Shown (t.scope t') name) x y) ?_)
    fun x y t t' after shown => ?_
  · rw [h.left.stored?, h.right.stored?]
    exact field?_shown h hv name
  · cases shown with
    | some shown => exact inStep_pure after.twin shown
    | none =>
        rw [hv.typeName_eq]
        exact inStep_fail after.twin _

/-! ### Handles -/

variable {k k' : Handle}

theorem Like.of_handle {c : Scope} (h : Like c k.toValue k'.toValue) :
    k'.serial = k.serial ∧ k'.expected = k.expected ∧ k'.index = k.index ∧
      c.arenas k.arena k'.arena := by
  generalize hv : k.toValue = v at h
  generalize hw : k'.toValue = w at h
  cases h with
  | handle h =>
      cases hv
      cases hw
      exact ⟨rfl, rfl, rfl, h⟩
  | atom h =>
      subst hv
      cases h
  | @node n _ => cases n <;> cases hv
  | fixed h =>
      cases hv
      cases h
  | _ => cases hv

theorem inStep_statements (h : s.Twin s') (hk : Like (s.scope s') k.toValue k'.toValue) :
    InStep Still k.statements k'.statements s s' fun v w t t' =>
      ∃ a a', v = .object (.arena a) ∧ w = .object (.arena a') ∧ (t.scope t').arenas a a' := by
  refine inStep_read h ⟨k.arena, k'.arena, ?_, ?_, hk.of_handle.2.2.2⟩
  · rw [h.left.stored?]
    rfl
  · rw [h.right.stored?]
    rfl

theorem inStep_place (h : s.Twin s') (hk : Like (s.scope s') k.toValue k'.toValue) :
    InStep Still k.place k'.place s s' fun v w _ _ => v = .int k.index ∧ w = .int k.index := by
  refine inStep_read h ?_
  rw [h.left.stored?, h.right.stored?]
  exact ⟨rfl, congrArg Value.int hk.of_handle.2.2.1⟩

theorem inStep_statement (h : s.Twin s') (hk : Like (s.scope s') k.toValue k'.toValue) :
    InStep Still k.statement k'.statement s s' fun v w t t' =>
      Like (t.scope t') v w ∧ k.expected.admits v := by
  obtain ⟨-, expected, index, -⟩ := hk.of_handle
  rw [Handle.statement, Handle.statement]
  refine inStep_bind (inStep_statements h hk) fun _ _ t t' after found => ?_
  obtain ⟨a, a', hv, hw, ha⟩ := found
  subst hv hw
  refine inStep_bind (inStep_place after.twin (hk.mono (after.within h)))
    fun _ _ u u' next found => ?_
  obtain ⟨hx, hy⟩ := found
  subst hx hy
  have ha := (next.within after.twin).arenas _ _ ha
  refine inStep_bind (inStep_item next.twin ha (.atom rfl)) fun v w t t' after like => ?_
  rw [expected, index, like.admits_eq, like.typeName_eq]
  split
  · exact inStep_pure after.twin ⟨like, ‹_›⟩
  · exact inStep_fail after.twin _

theorem inStep_node (h : s.Twin s') (hk : Like (s.scope s') k.toValue k'.toValue) :
    InStep Still k.node k'.node s s' fun n m t _ =>
      m = n ∧ t.HasNode n ∧ k.expected.admits n.toValue := by
  refine inStep_bind (inStep_statement h hk) fun v w t t' after found => ?_
  obtain ⟨like, admitted⟩ := found
  rw [like.node?_eq]
  cases hn : v.node? with
  | none => exact inStep_fail after.twin _
  | some n =>
      obtain ⟨rfl, -, known⟩ := like.of_node? hn
      exact inStep_pure after.twin ⟨rfl, known, admitted⟩

theorem inStep_handleMember (h : s.Twin s') (hk : Like (s.scope s') k.toValue k'.toValue)
    (name : String) :
    InStep Still (k.member name) (k'.member name) s s' fun x y t t' =>
      Shown (t.scope t') name x y := by
  rw [Handle.member, Handle.member, hk.of_handle.2.1]
  split
  · refine inStep_bind (inStep_statement h hk) fun v w t t' after found => ?_
    obtain ⟨like, _⟩ := found
    split
    · exact inStep_storedMember after.twin like name
    · exact inStep_pure after.twin (.like like)
  · exact inStep_storedMember h hk name

/-! ### All of them -/

/-- Attributes of values that are alike go together. -/
theorem inStep_member (h : s.Twin s') (hv : Like (s.scope s') v w) (name : String) :
    InStep Still (v.member name) (w.member name) s s' fun x y t t' =>
      Shown (t.scope t') name x y := by
  have stored := inStep_storedMember h hv name
  cases hv with
  | handle ha => exact inStep_handleMember h (.handle ha) name
  | @atom v hv => cases v <;> first | exact stored | cases hv
  | @node n _ => cases n <;> exact stored
  | @fixed o ho => cases o <;> first | exact stored | cases ho
  | _ => exact stored

theorem inStep_likeMember (h : s.Twin s') (hv : Like (s.scope s') v w) {name : String}
    (hname : name ∉ ownerNames) :
    InStep Still (v.member name) (w.member name) s s' fun x y t t' => Like (t.scope t') x y :=
  (inStep_member h hv name).mono fun _ _ _ _ shown => shown.like_of_not_mem hname

/-! ### Names -/

private theorem field_name {c : Scope} (hv : Like c v w) {x : Value}
    (hx : v.field? s "name" = some x) : ∃ text, x = .text text := by
  cases hv with
  | @atom v hv =>
      cases v with
      | ownership | kind | path => exact ⟨_, (Option.some.inj hx).symm⟩
      | _ => first | cases hx | cases hv
  | @node n _ =>
      cases n with
      | rule | pool => exact ⟨_, (Option.some.inj hx).symm⟩
      | build => cases hx
  | @fixed o ho =>
      cases o with
      | binding => exact ⟨_, (Option.some.inj hx).symm⟩
      | _ => first | (cases ho; done) | cases hx
  | _ => cases hx

private theorem inStep_storedName (h : s.Twin s') (hv : Like (s.scope s') v w) :
    InStep Still (v.storedMember "name") (w.storedMember "name") s s' fun x y _ _ =>
      y = x ∧ ∃ text, x = .text text := by
  refine inStep_bind (inStep_read h
    (Q := fun x y _ _ => Option.Rel (fun x y => y = x ∧ ∃ text, x = .text text) x y) ?_)
    fun x y t t' after named => ?_
  · rw [h.left.stored?, h.right.stored?]
    have shown := field?_shown h hv "name"
    have named (x : Value) := @field_name s v w _ hv x
    generalize v.field? s "name" = found at shown named
    generalize w.field? s' "name" = found' at shown
    cases shown with
    | none => exact .none
    | some shown =>
        obtain ⟨text, rfl⟩ := named _ rfl
        exact .some ⟨(shown.like_of_not_mem (by decide)).eq_of_atom rfl, text, rfl⟩
  · cases named with
    | some named => exact inStep_pure after.twin named
    | none =>
        rw [hv.typeName_eq]
        exact inStep_fail after.twin _

theorem inStep_name (h : s.Twin s') (hv : Like (s.scope s') v w) :
    InStep Still (v.member "name") (w.member "name") s s' fun x y _ _ =>
      y = x ∧ ∃ text, x = .text text := by
  have stored := inStep_storedName h hv
  cases hv with
  | @handle n e i a a' ha =>
      have hk : Like (s.scope s') (Handle.toValue ⟨n, e, a, i⟩) (Handle.toValue ⟨n, e, a', i⟩) :=
        .handle ha
      have statement := inStep_bind (inStep_statement h hk) fun v w t t' after ⟨like, _⟩ =>
        inStep_storedName after.twin like
      cases e with
      | rule | pool => exact statement
      | any | build => exact stored
  | @atom v hv => cases v <;> first | exact stored | cases hv
  | @node n _ => cases n <;> exact stored
  | @fixed o ho => cases o <;> first | exact stored | cases ho
  | _ => exact stored

/-! ### Kinds -/

theorem inStep_kindOf (h : s.Twin s') (hv : Like (s.scope s') v w) :
    InStep Still v.kindOf w.kindOf s s' fun x y t t' => Like (t.scope t') x y :=
  inStep_likeMember h hv (by decide)

end Members

end NinjaFile.Twin
