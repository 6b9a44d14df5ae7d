import NinjaFile.Proofs.Twin.Looking
import NinjaFile.Proofs.Twin.Inserting
import NinjaFile.Proofs.Twin.Rendering
import NinjaFile.Script.Calling

/-!
# Methods on twins

The methods of documents, arenas, nodes and handles go in step, whatever they are called
with.
-/

namespace NinjaFile

open Action Program Script

/-! ## Adoption -/

namespace Store

variable {s t : Store} {n : Node}

theorem Recast.grown (h : s.Recast t) : s.Grown t where
  nodes n := (h.nodes n).mpr
  documents := Nat.le_of_eq (congrArg Table.size h.documents.symm)
  document d _ := congrArg (Table.get · d.index) h.documents
  sources := Nat.le_of_eq (congrArg Table.size h.sources.symm)

private theorem isSame_of_error {v : Value} {fault : Fault} (h : v.ownershipOf = .error fault)
    (o : Ownership) : v.isSame (.ownership o) = false := by
  cases v with
  | object object => cases object <;> rfl
  | ownership => cases h
  | _ => rfl

theorem Tidy.alone_adopt_error (h : s.Tidy) (hn : s.HasNode n) {v : Value} {fault : Fault}
    (hv : v.ownershipOf = .error fault) : (n.adopt v).alone s = (.error fault, s) := by
  have first {q : Part} (hq : q ∈ n.parts) : (n.adoptPart v q).alone s = (.error fault, s) := by
    have own : s.listOwnership (s.part n q) = .ownership (s.owner (.part n q)) := by
      rw [listOwnership, h.bare]
      rfl
    have refused : (ListId.adopt (s.part n q) v).alone s = (.error fault, s) := by
      have snapshot := ListId.alone_snapshot (h.open_spot (x := .part n q) ⟨hn, hq⟩)
      rw [ListId.adopt, alone_read_bind, own, isSame_of_error hv, if_neg Bool.false_ne_true]
      rw [alone_bind_ok (show alone (s.part n q).snapshot s = _ from snapshot), alone_read_bind, hv]
      rfl
    rw [adoptPart_eq, alone_read_bind, h.partValue]
    dsimp only
    rw [alone_bind, refused]
  obtain ⟨q, rest, parts⟩ : ∃ q rest, n.parts = q :: rest := by cases n <;> exact ⟨_, _, rfl⟩
  rw [Node.adopt, parts, Node.adoptParts, alone_bind, first (parts ▸ List.mem_cons_self)]

end Store

namespace Twin

open Store

variable {s s' : Store} {v w : Value} {n : Node}

theorem inStep_adopt (h : s.Twin s') (hn : s.HasNode n) (hv : Like (s.scope s') v w) :
    InStep Grown (n.adopt v) (n.adopt w) s s' fun _ _ _ _ => True := by
  have hn' := (h.nodes n).mpr hn
  cases howner : v.ownershipOf with
  | error fault =>
      rw [InStep, h.left.alone_adopt_error hn howner,
        h.right.alone_adopt_error hn' (hv.ownershipOf_eq.trans howner)]
      exact .error (.refl h)
  | ok o =>
      obtain rfl : v = .ownership o := by
        cases v <;> cases howner
        rfl
      obtain rfl := hv.eq_of_atom rfl
      obtain ⟨t, adopted, recast, -⟩ := h.left.alone_adopt hn o
      obtain ⟨t', adopted', recast', -⟩ := h.right.alone_adopt hn' o
      exact inStep_of_alone adopted adopted' ⟨h.recast recast recast', recast.grown, recast'.grown,
        [], by simp [recast.logging], by simp [recast'.logging]⟩ trivial

/-! ## Methods -/

/-- What a method may do to a store. -/
def Reach (name : String) : Store → Store → Prop := if name = "adopt" then Grown else Once

theorem reach_eq {name : String} (h : name ≠ "adopt") : Reach name = Once := if_neg h

instance (name : String) : Precedes Still (Reach name) := by
  rw [Reach]
  split <;> infer_instance

abbrev LikeMethod (s s' : Store) (m m' : Callable) : Prop := LikeCallable (Reach m.name) s s' m m'

abbrev LikeMethods (s s' : Store) : List Callable → List Callable → Prop :=
  List.Forall₂ (LikeMethod s s')

namespace LikeMethod

theorem of_once {m m' : Callable} (h : LikeCallable Once s s' m m') (name : m.name ≠ "adopt") :
    LikeMethod s s' m m' := by
  rw [LikeMethod, reach_eq name]
  exact h

theorem of_grown {m m' : Callable} (h : LikeCallable Grown s s' m m') (name : m.name = "adopt") :
    LikeMethod s s' m m' := by
  rw [LikeMethod, Reach, if_pos name]
  exact h

variable {owner name : String} (hname : name ≠ "adopt")

include hname

theorem nullary {run run' : Action Value}
    (h : InStep Once run run' s s' fun v w t t' => Like (t.scope t') v w) :
    LikeMethod s s' (.nullary owner name run) (.nullary owner name run') :=
  of_once (.nullary owner name h) hname

theorem unary {parameter : String} {run run' : Value → Action Value}
    (h : ∀ v w, Like (s.scope s') v w →
      InStep Once (run v) (run' w) s s' fun v w t t' => Like (t.scope t') v w) :
    LikeMethod s s' (.unary owner name parameter run) (.unary owner name parameter run') :=
  of_once (.unary owner name parameter h) hname

theorem binary {first second : String} {run run' : Value → Value → Action Value}
    (h : ∀ v w x y, Like (s.scope s') v w → Like (s.scope s') x y →
      InStep Once (run v x) (run' w y) s s' fun v w t t' => Like (t.scope t') v w) :
    LikeMethod s s' (.binary owner name first second run)
      (.binary owner name first second run') :=
  of_once (.binary owner name first second h) hname

end LikeMethod

variable {o o' : Object} {r r' : Receiver}

theorem inStep_chained {p p' : Action Unit} (h : s.Twin s')
    (ho : Like (s.scope s') (.object o) (.object o'))
    (hp : InStep Kept p p' s s' fun _ _ _ _ => True) :
    InStep Once (chained o p) (chained o' p') s s' fun v w t t' => Like (t.scope t') v w := by
  refine inStep_bind hp fun _ _ t t' after _ => ?_
  exact inStep_pure after.twin (ho.mono (after.within h))

/-! ### Attachments -/

theorem variablesMethods_like (h : s.Twin s') (ho : Like (s.scope s') (.object o) (.object o'))
    (hr : LikeReceiver (s.scope s') r r') :
    LikeMethods s s' (variablesMethods o r) (variablesMethods o' r') :=
  .cons (.binary (by decide) fun _ _ _ _ hname hv =>
    inStep_chained h ho (inStep_attach h hr (.cons ⟨hname, hv⟩ .nil))) .nil

theorem ruleVariablesMethods_like (h : s.Twin s')
    (ho : Like (s.scope s') (.object o) (.object o')) (hr : LikeReceiver (s.scope s') r r') :
    LikeMethods s s' (ruleVariablesMethods o r) (ruleVariablesMethods o' r') := by
  have attach {a a' : Attachment} (ha : LikeAttachment (s.scope s') a a') :=
    inStep_chained h ho (inStep_attach h hr ha)
  have one (name : String) {v w : Value} (hv : Like (s.scope s') v w) :=
    attach (likeAttachment_one name hv)
  have fixed {a : Attachment} (ha : ∀ x ∈ a, x.1.isAtom ∧ x.2.isAtom) :=
    attach (likeAttachment_texts _ ha)
  refine .cons (.unary (by decide) fun _ _ hv => one "depfile" hv) ?_
  refine .cons (.nullary (by decide) (fixed (by decide))) ?_
  refine .cons (.nullary (by decide) (fixed (by decide))) ?_
  refine .cons (.unary (by decide) fun _ _ hv => attach (List.rel_append
    (likeAttachment_texts _ (by decide)) (likeAttachment_one "msvc_deps_prefix" hv))) ?_
  refine .cons (.unary (by decide) fun _ _ hv => one "description" hv) ?_
  refine .cons (.nullary (by decide) (fixed (by decide))) ?_
  refine .cons (.unary (by decide) fun _ _ hv => one "in_newline" hv) ?_
  refine .cons (.nullary (by decide) (fixed (by decide))) ?_
  refine .cons (.binary (by decide) fun _ _ _ _ hv hx => attach (List.rel_append
    (likeAttachment_one "rspfile" hv) (likeAttachment_one "rspfile_content" hx))) ?_
  refine .cons (.nullary (by decide) (fixed (by decide))) ?_
  exact .cons (.unary (by decide) fun _ _ hv => inStep_chained h ho (inStep_usePool h hr hv)) .nil

theorem buildVariablesMethods_like (h : s.Twin s')
    (ho : Like (s.scope s') (.object o) (.object o')) (hr : LikeReceiver (s.scope s') r r')
    (paths : ∀ slot, HasPart (.paths slot) r) :
    LikeMethods s s' (buildVariablesMethods o r) (buildVariablesMethods o' r') := by
  have add (slot : Slot) {v w : Value} (hv : Like (s.scope s') v w) :=
    inStep_chained h ho (inStep_addPaths h hr (paths slot) hv)
  refine .cons (.unary (by decide) fun _ _ hv => add .inputs hv) ?_
  refine .cons (.unary (by decide) fun _ _ hv => add .implicitInputs hv) ?_
  refine .cons (.unary (by decide) fun _ _ hv => add .orderOnlyInputs hv) ?_
  refine .cons (.unary (by decide) fun _ _ hv => add .validations hv) ?_
  refine .cons (.unary (by decide) fun _ _ hv => add .implicitOutputs hv) ?_
  exact .cons (.unary (by decide) fun _ _ hv =>
    inStep_chained h ho (inStep_attach h hr (likeAttachment_one "dyndep" hv))) .nil

/-! ### Documents -/

section Documents

variable {d : DocumentId}

theorem inStep_handleOf {p p' : Action Handle}
    (hp : InStep Once p p' s s' fun k k' t t' => Like (t.scope t') k.toValue k'.toValue) :
    InStep Once (handleOf p) (handleOf p') s s' fun v w t t' => Like (t.scope t') v w :=
  inStep_bind_kept hp fun _ _ _ _ after like => inStep_pure after.twin like

theorem inStep_documentRule {name name' : Value} (h : s.Twin s') (hd : s.HasDocument d)
    (hname : Like (s.scope s') name name') (hv : Like (s.scope s') v w) :
    InStep Once (d.rule name v) (d.rule name' w) s s' fun k k' t t' =>
      Like (t.scope t') k.toValue k'.toValue := by
  refine inStep_bind (inStep_ruleMake h hname hv (.ok trivial)) fun _ r t t' after found => ?_
  obtain ⟨heq, known⟩ := found
  subst heq
  exact inStep_insertInto after.twin (after.left.hasDocument hd) .rule (.node (n := .rule r) known)

theorem inStep_documentPhony (h : s.Twin s') (hd : s.HasDocument d)
    (hv : Like (s.scope s') v w) :
    InStep Once (d.phony v) (d.phony w) s s' fun k k' t t' =>
      Like (t.scope t') k.toValue k'.toValue := by
  refine inStep_bind (inStep_likeMember h (.document hd) (by decide)) fun _ _ t t' after rule => ?_
  have hd := after.left.kept.hasDocument hd
  refine inStep_bind (inStep_buildMake after.twin rule (hv.mono (after.within h)) (.ok trivial))
    fun _ b u u' next found => ?_
  obtain ⟨heq, known⟩ := found
  subst heq
  exact inStep_insertInto next.twin (next.left.hasDocument hd) .build (.node (n := .build b) known)

theorem inStep_documentPool {name name' : Value} (h : s.Twin s') (hd : s.HasDocument d)
    (hname : Like (s.scope s') name name') (hv : Like (s.scope s') v w) :
    InStep Once (d.pool name v) (d.pool name' w) s s' fun k k' t t' =>
      Like (t.scope t') k.toValue k'.toValue := by
  refine inStep_bind (inStep_poolMake h hname hv (.ok trivial) false)
    fun _ p t t' after found => ?_
  obtain ⟨heq, known⟩ := found
  subst heq
  exact inStep_insertInto after.twin (after.left.hasDocument hd) .pool (.node (n := .pool p) known)

theorem Like.toPath_eq {c : Scope} (h : Like c v w) : w.toPath = v.toPath := by
  cases h <;> rfl

theorem inStep_saveText (h : s.Twin s') (path : Text.Path) (content : String) :
    InStep Still (.update fun s => s.saveText path content)
      (.update fun s => s.saveText path content) s s' fun r r' _ _ => r' = r := by
  rw [InStep, alone_update, alone_update, saveText, saveText, h.files]
  cases s.files.write path (Text.Utf8.encode content) with
  | error fault => exact .ok (.refl h) rfl
  | ok files =>
      exact .ok ⟨h.withFiles files, ⟨_, _, _, _, rfl, rfl⟩, ⟨_, _, _, _, rfl, rfl⟩, [], by simp,
        by simp⟩ rfl

theorem inStep_write (h : s.Twin s') (hd : s.HasDocument d) (hv : Like (s.scope s') v w) :
    InStep Still (d.write v) (d.write w) s s' fun p q _ _ => q = p := by
  refine inStep_bind (inStep_same h hv.toPath_eq) fun _ path t t' after heq => ?_
  subst heq
  have hd := after.left.kept.hasDocument hd
  refine inStep_bind (inStep_render after.twin hd) fun _ text u u' next heq => ?_
  subst heq
  have hd := next.left.kept.hasDocument hd
  refine inStep_bind (inStep_saveText next.twin path text) fun _ saved t t' after heq => ?_
  subst heq
  have hd := after.left.kept.hasDocument hd
  refine inStep_bind (inStep_same after.twin rfl) fun _ _ u u' next _ => ?_
  have hd := next.left.kept.hasDocument hd
  refine inStep_bind (inStep_likeMember next.twin (.document hd) (by decide))
    fun x y t t' after logger => ?_
  have hd := after.left.kept.hasDocument hd
  refine inStep_bind (inStep_same after.twin (logger.logger?_eq "info"))
    fun _ view u u' next heq => ?_
  subst heq
  have hd := next.left.kept.hasDocument hd
  refine inStep_bind (inStep_statementsOf next.twin hd) fun _ _ t t' after found => ?_
  obtain ⟨a, a', hx, hy, ha⟩ := found
  subst hx hy
  refine inStep_bind (inStep_length after.twin ha) fun _ count u u' next heq => ?_
  subst heq
  exact inStep_bind (inStep_logBy next.twin view _ _) fun _ _ _ _ after _ =>
    inStep_pure after.twin rfl

theorem insertionMethods_like (h : s.Twin s') (hd : s.HasDocument d) :
    LikeMethods s s' (insertionMethods d) (insertionMethods d) := by
  have chained {p p' : Action Unit} (hp : InStep Once p p' s s' fun _ _ _ _ => True) :
      InStep Once (chained (.document d) p) (chained (.document d) p') s s' fun v w t t' =>
        Like (t.scope t') v w :=
    inStep_bind_kept hp fun _ _ t t' after _ =>
      inStep_pure after.twin (.document (after.left.grown.hasDocument hd))
  refine .cons (.unary (by decide) fun _ _ hv => chained (inStep_addMade hd ?_)) ?_
  · exact inStep_makeText h hv (f := fun text n => .comment n text) fun _ _ => rfl
  refine .cons (.binary (by decide) fun _ _ _ _ hname hv => chained (inStep_addMade hd ?_)) ?_
  · refine (inStep_makeBinding h hname hv).mono fun v w _ _ found => ?_
    obtain ⟨heq, n, b, hb⟩ := found
    rw [heq, hb]
    exact .fixed rfl
  refine .cons (.unary (by decide) fun _ _ hv =>
    chained (inStep_addMade hd (inStep_makeDefaults h hv))) ?_
  refine .cons (.unary (by decide) fun _ _ hv => chained (inStep_addMade hd ?_)) ?_
  · exact inStep_makeText h hv (f := fun path n => .subninja n path) fun _ _ => rfl
  refine .cons (.unary (by decide) fun _ _ hv => chained (inStep_addMade hd ?_)) .nil
  exact inStep_makeText h hv (f := fun path n => .inclusion n path) fun _ _ => rfl

theorem documentMethods_like (h : s.Twin s') (hd : s.HasDocument d) :
    LikeMethods s s' (documentMethods d) (documentMethods d) := by
  have insert (e : Expected) {v w : Value} (hv : Like (s.scope s') v w) :=
    inStep_handleOf (inStep_insertInto h hd e hv)
  refine List.rel_append ?_ (insertionMethods_like h hd)
  refine .cons (.binary (by decide) fun _ _ _ _ hname hv =>
    inStep_handleOf (inStep_documentRule h hd hname hv)) ?_
  refine .cons (.unary (by decide) fun _ _ hv => insert .rule hv) ?_
  refine .cons (.unary (by decide) fun _ _ hv =>
    inStep_handleOf (inStep_documentPhony h hd hv)) ?_
  refine .cons (.unary (by decide) fun _ _ hv => insert .build hv) ?_
  refine .cons (.binary (by decide) fun _ _ _ _ hname hv =>
    inStep_handleOf (inStep_documentPool h hd hname hv)) ?_
  refine .cons (.unary (by decide) fun _ _ hv => insert .pool hv) ?_
  refine .cons (.nullary (by decide) ?_) (.cons (.unary (by decide) fun _ _ hv => ?_) .nil)
  · refine inStep_bind (inStep_render h hd) fun _ text _ _ after heq => ?_
    subst heq
    exact inStep_pure after.twin (.atom rfl)
  · refine inStep_bind (inStep_write h hd hv) fun _ path _ _ after heq => ?_
    subst heq
    exact inStep_pure after.twin (.atom rfl)

end Documents

/-! ### Nodes -/

theorem inStep_addTo {v v' document document' : Value} (h : s.Twin s')
    (hv : Like (s.scope s') v v') (hd : Like (s.scope s') document document') (e : Expected)
    (name : String) :
    InStep Once (addTo v document (fun d v => d.insert e v) name)
      (addTo v' document' (fun d v => d.insert e v) name) s s' fun v w t t' =>
        Like (t.scope t') v w := by
  have refused : InStep Once (.fail (.noAttribute document.typeName name) : Action Value)
      (.fail (.noAttribute document'.typeName name)) s s' fun v w t t' => Like (t.scope t') v w := by
    rw [hd.typeName_eq]
    exact inStep_fail h _
  cases hd with
  | document hd => exact inStep_handleOf (inStep_insertInto h hd e hv)
  | atom ho => cases document <;> first | exact refused | cases ho
  | @node n _ => cases n <;> exact refused
  | @fixed o ho => cases o <;> first | exact refused | cases ho
  | _ => exact refused

theorem nodeMethods_like (h : s.Twin s') (hn : s.HasNode n) :
    LikeMethods s s' (nodeMethods n) (nodeMethods n) := by
  have node : Like (s.scope s') n.toValue n.toValue := .node hn
  have common : LikeMethods s s'
      [.unary n.toValue.typeName "adopt" "ownership" fun ownership => do
          n.adopt ownership
          return .null,
        .nullary n.toValue.typeName "render" do return .text (← n.render)]
      [.unary n.toValue.typeName "adopt" "ownership" fun ownership => do
          n.adopt ownership
          return .null,
        .nullary n.toValue.typeName "render" do return .text (← n.render)] := by
    refine .cons ?_ (.cons (.nullary (by decide) ?_) .nil)
    · refine .of_grown (LikeCallable.unary _ _ _ fun v w hv => ?_) rfl
      exact inStep_bind (inStep_adopt h hn hv) fun _ _ _ _ after _ =>
        inStep_pure after.twin (.atom rfl)
    · refine inStep_bind (inStep_nodeRender h hn) fun _ text _ _ after heq => ?_
      subst heq
      exact inStep_pure after.twin (.atom rfl)
  cases n with
  | rule r => exact .cons (.unary (by decide) fun _ _ hd => inStep_addTo h node hd .rule _) common
  | pool p => exact .cons (.unary (by decide) fun _ _ hd => inStep_addTo h node hd .pool _) common
  | build b => exact common

/-! ### Handles -/

section Handles

variable {k k' : Handle}

theorem inStep_handleAdd (h : s.Twin s') (hk : Like (s.scope s') k.toValue k'.toValue)
    (hv : Like (s.scope s') v w) :
    InStep Once (do return .int (← (← k.statements).append v))
      (do return .int (← (← k'.statements).append w)) s s' fun v w t t' =>
        Like (t.scope t') v w := by
  refine inStep_bind (inStep_statements h hk) fun _ _ t t' after found => ?_
  obtain ⟨a, a', hx, hy, ha⟩ := found
  subst hx hy
  refine inStep_bind_kept (inStep_append after.twin ha (hv.mono (after.within h)))
    fun _ i _ _ after heq => ?_
  subst heq
  exact inStep_pure after.twin (.atom rfl)

theorem handleMethods_like (h : s.Twin s') (hk : Like (s.scope s') k.toValue k'.toValue) :
    LikeMethods s s' (handleMethods k) (handleMethods k') := by
  have add : LikeMethods s s'
      [.unary Expected.any.typeName "add" "statement" fun v => do
        return .int (← (← k.statements).append v)]
      [.unary Expected.any.typeName "add" "statement" fun v => do
        return .int (← (← k'.statements).append v)] :=
    .cons (.unary (by decide) fun _ _ hv => inStep_handleAdd h hk hv) .nil
  rw [handleMethods, handleMethods, hk.of_handle.2.1]
  cases k.expected with
  | rule =>
      exact .cons (.unary (by decide) fun _ _ hv => inStep_handleOf (inStep_build h hk hv)) add
  | pool =>
      exact .cons (.binary (by decide) fun _ _ _ _ hname hv =>
        inStep_handleOf (inStep_rule h hk hname hv)) add
  | any | build => exact add

end Handles

/-! ### Arenas -/

theorem arenaMethods_like (h : s.Twin s') {a a' : Arena} (ha : (s.scope s').arenas a a') :
    LikeMethods s s' (arenaMethods a) (arenaMethods a') := by
  refine .cons (.unary (by decide) fun _ _ hv => ?_) (.cons (.nullary (by decide) ?_)
    (.cons (.nullary (by decide) ?_) (.cons (.nullary (by decide) ?_)
      (.cons (.unary (by decide) fun _ _ hi => ?_) .nil))))
  · refine inStep_bind_kept (inStep_append h ha hv) fun _ i _ _ after heq => ?_
    subst heq
    exact inStep_pure after.twin (.atom rfl)
  · exact inStep_bind (inStep_snapshot h ha) fun _ _ _ _ after like =>
      inStep_pure after.twin (.tuple like)
  · exact inStep_bind (inStep_snapshot h ha) fun _ _ _ _ after like =>
      inStep_pure after.twin (.list like)
  · refine inStep_bind (inStep_length h ha) fun _ n _ _ after heq => ?_
    subst heq
    exact inStep_pure after.twin (.atom rfl)
  · exact (inStep_item h ha hi).weaken

/-! ### All of them -/

/-- Things whose methods are called: documents, their arenas, nodes and handles. -/
def IsReceiver : Value → Bool
  | .object (.document _) | .object (.rule _) | .object (.build _) | .object (.pool _) => true
  | .object (.arena _) | .object (.handle _) => true
  | _ => false

/-- Rules, builds and pools, and handles to them, have the methods of their kind. -/
theorem attachmentMethods_like (h : s.Twin s') (ho : Like (s.scope s') (.object o) (.object o'))
    (hr : LikeReceiver (s.scope s') r r') (receiver : o.receiver? = some r)
    (receiver' : o'.receiver? = some r') (mixin : mixin? o' = mixin? o)
    (paths : mixin? o = some .buildVariables → ∀ slot, HasPart (.paths slot) r) :
    LikeMethods s s' (attachmentMethods o) (attachmentMethods o') := by
  have bindings := variablesMethods_like h ho hr
  have rules := List.rel_append (ruleVariablesMethods_like h ho hr) bindings
  rw [attachmentMethods, attachmentMethods, receiver, receiver', mixin]
  cases hm : mixin? o with
  | none => exact .nil
  | some m =>
      cases m with
      | buildVariables =>
          dsimp only
          rw [List.append_assoc, List.append_assoc]
          exact List.rel_append (buildVariablesMethods_like h ho hr (paths hm)) rules
      | ruleVariables => exact rules
      | _ => exact bindings

theorem methodsOf_like (h : s.Twin s') (hv : Like (s.scope s') v w) (receives : IsReceiver v) :
    LikeMethods s s' (methodsOf v) (methodsOf w) := by
  have like := hv
  cases hv with
  | document hd => exact List.rel_append (documentMethods_like h hd) .nil
  | arena ha => exact List.rel_append (arenaMethods_like h ha) .nil
  | @node n hn =>
      have own := nodeMethods_like h hn
      have attached (paths : mixin? (.ofNode n) = some .buildVariables →
          ∀ slot, HasPart (.paths slot) (.node n)) :=
        attachmentMethods_like h like (.node hn) (by cases n <;> rfl) (by cases n <;> rfl) rfl paths
      cases n with
      | rule r => exact List.rel_append own (attached nofun)
      | pool p => exact List.rel_append own (attached nofun)
      | build b => exact List.rel_append own (attached fun _ slot => paths_mem_parts b slot)
  | @handle serial e i a a' ha =>
      let k : Handle := ⟨serial, e, a, i⟩
      let k' : Handle := ⟨serial, e, a', i⟩
      have own : LikeMethods s s' (handleMethods k) (handleMethods k') := handleMethods_like h like
      have attached (known : e ≠ .any) (paths : mixin? (.handle k) = some .buildVariables →
          ∀ slot, HasPart (.paths slot) (.handle k)) :=
        attachmentMethods_like h like (.handle like) (if_neg known) (if_neg known) rfl paths
      refine List.rel_append own ?_
      cases e with
      | any => exact .nil
      | rule | pool => exact attached nofun nofun
      | build =>
          refine attached nofun fun _ slot n admitted => ?_
          cases n with
          | build b => exact paths_mem_parts b slot
          | rule | pool => cases admitted
  | @atom v hv => cases v <;> first | cases receives | cases hv
  | @fixed o ho => cases o <;> first | (cases ho; done) | cases receives
  | _ => cases receives

/-! ## Calls -/

theorem find?_method {ms ms' : List Callable} (h : LikeMethods s s' ms ms') (name : String) :
    Option.Rel (fun m m' => LikeCallable (Reach name) s s' m m')
      (ms.find? fun m => m.name == name) (ms'.find? fun m => m.name == name) := by
  induction h with
  | nil => exact .none
  | @cons m m' ms ms' first _ ih =>
      have same : m'.name = m.name := by rw [first.same]
      rw [List.find?_cons, List.find?_cons, same]
      cases hname : m.name == name with
      | false => exact ih
      | true =>
          obtain rfl := beq_iff_eq.mp hname
          exact .some first

private theorem alone_methodNamed {α : Type} (h : s.Tidy) (v : Value) (name : String)
    (k : Option Callable → Action α) :
    (methodNamed? v name >>= k).alone s =
      (k ((methodsOf v).find? fun m => m.name == name)).alone s := by
  have bare : (v.identity?.bind fun i => s.assigned? i name) = none := by
    cases v.identity? with
    | none => rfl
    | some i => exact h.bare i name
  rw [methodNamed?, alone_read_bind, bare]
  rfl

/-- A method is called in the same way on either side, or there is none of that name. -/
theorem inStep_callNamed {args args' : List Value} {named named' : List (String × Value)}
    (h : s.Twin s') (hv : Like (s.scope s') v w) (receives : IsReceiver v) (name : String)
    (hargs : LikeAll (s.scope s') args args') (hnamed : LikeNamed (s.scope s') named named') :
    InStep (Reach name) (callNamed v name args named) (callNamed w name args' named') s s'
      fun v w t t' => Like (t.scope t') v w := by
  have found := find?_method (methodsOf_like h hv receives) name
  refine .of_leading (After.refl (R := Still) h) (alone_methodNamed h.left v name _)
    (alone_methodNamed h.right w name _) ?_
  generalize (methodsOf v).find? _ = m at found ⊢
  generalize (methodsOf w).find? _ = m' at found ⊢
  cases found with
  | some like => exact like.call h hargs hnamed
  | none =>
      refine inStep_bind (inStep_member h hv name) fun x y t t' after shown => ?_
      rw [shown.typeName_eq]
      exact inStep_fail after.twin _

/-- An attribute that tells nobody who may use something is had in the same way. -/
theorem inStep_memberOf (h : s.Twin s') (hv : Like (s.scope s') v w) (receives : IsReceiver v)
    {name : String} (hname : name ∉ ownerNames) :
    InStep Still (memberOf v name) (memberOf w name) s s' fun x y t t' => Like (t.scope t') x y := by
  have found := find?_method (methodsOf_like h hv receives) name
  refine .of_leading (After.refl (R := Still) h) (alone_methodNamed h.left v name _)
    (alone_methodNamed h.right w name _) ?_
  generalize (methodsOf v).find? _ = m at found ⊢
  generalize (methodsOf w).find? _ = m' at found ⊢
  cases found with
  | some =>
      have next (s : Store) : (Action.alone (do
          let serial ← Program.update Store.nextSerial
          return .bare serial "method" : Action Value) s) =
            (.ok (.bare s.serial "method"), { s with serial := s.serial + 1 }) := rfl
      refine inStep_of_alone (next s) (next s') (.withSerial h (by rw [h.serial])) ?_
      rw [h.serial]
      exact .atom rfl
  | none => exact inStep_likeMember h hv hname

end Twin

end NinjaFile
