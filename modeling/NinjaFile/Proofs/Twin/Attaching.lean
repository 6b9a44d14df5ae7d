import NinjaFile.Proofs.Twin.Making

/-!
# Attaching to twins

What is attached to a node goes into the list that the node has for it on either side, and
the part holds it, by whatever list.
-/

namespace NinjaFile

open Action Program

namespace Store

variable {s t : Store} {n : Node} {q : Part}

theorem Tidy.kept_append (h : s.Tidy) (hq : s.HasPlace (.part n q)) (items : List Value) :
    s.Kept (s.modifyList (s.part n q) (·.append items)) where
  nodes _ := id
  documents := Nat.le_refl _
  document _ _ := rfl
  sources := Nat.le_refl _
  statements d := by
    by_cases hd : s.HasDocument d
    · rw [stated_eq hd, stated_eq (s := s.modifyList _ _) hd]
      exact (h.held_append (x := .part n q) hq (y := .statements d) hd items).trans (if_neg nofun)
    · exact (stated_eq_nil (s := s.modifyList _ _) hd).trans (stated_eq_nil hd).symm
  owners _ _ _ := owner_append ..

theorem Still.part (h : s.Still t) (n : Node) (q : Part) : t.part n q = s.part n q := by
  obtain ⟨_, _, _, _, -, rfl⟩ := h
  cases n <;> cases q <;> rfl

theorem Tidy.partValue (h : s.Tidy) (n : Node) (q : Part) :
    s.partValue n q = .object (.list (s.part n q)) := by
  rw [Store.partValue, h.bare]
  rfl

end Store

namespace Twin

open Store

variable {s s' : Store} {v w : Value} {n : Node} {q : Part}

/-! ## Parts -/

theorem After.append (h : s.Twin s') (hq : s.HasPlace (.part n q)) {items : List Value}
    (proper : ∀ v ∈ items, q.admits v) :
    After Kept s s' (s.modifyList (s.part n q) (·.append items))
      (s'.modifyList (s'.part n q) (·.append items)) := by
  have like : LikeAll (s.scope s') items items :=
    List.forall₂_same.mpr fun v hv => Part.like_of_admits (proper v hv)
  have admitted (m : Node) (r : Part) (heq : Place.part n q = .part m r) (v : Value)
      (hv : v ∈ items) : r.admits v := by
    cases heq
    exact proper v hv
  exact ⟨h.append hq like admitted admitted, h.left.kept_append hq items,
    h.right.kept_append ((h.hasPlace _).mpr hq) items, [], by simp [modifyList],
    by simp [modifyList]⟩

/-- What can be attached to, in the same way on either side. -/
inductive LikeReceiver (c : Scope) : Receiver → Receiver → Prop where
  | node {n : Node} (h : c.nodes n) : LikeReceiver c (.node n) (.node n)
  | handle {k k' : Handle} (h : Like c k.toValue k'.toValue) :
      LikeReceiver c (.handle k) (.handle k')

/-- What a receiver leads to has the part. -/
def HasPart (q : Part) : Receiver → Prop
  | .node n => q ∈ n.parts
  | .handle k => ∀ n : Node, k.expected.admits n.toValue → q ∈ n.parts
  | .mixin _ => False

namespace LikeReceiver

variable {c c' : Scope} {r r' : Receiver}

theorem mono (h : LikeReceiver c r r') (within : c.Within c') : LikeReceiver c' r r' := by
  cases h with
  | node h => exact .node (within.nodes _ h)
  | handle h => exact .handle (h.mono within)

theorem bindings (h : LikeReceiver c r r') : HasPart .bindings r := by
  cases h with
  | node _ => exact bindings_mem_parts _
  | handle _ => exact fun n _ => bindings_mem_parts n

end LikeReceiver

variable {r r' : Receiver}

theorem inStep_resolve (h : s.Twin s') (hr : LikeReceiver (s.scope s') r r') (hq : HasPart q r) :
    InStep Still r.resolve r'.resolve s s' fun n m t _ => m = n ∧ t.HasPlace (.part n q) := by
  cases hr with
  | node hn => exact inStep_pure h ⟨rfl, hn, hq⟩
  | handle hk =>
      exact (inStep_node h hk).mono fun n m t _ ⟨heq, known, admitted⟩ =>
        ⟨heq, known, hq n admitted⟩

theorem inStep_part (h : s.Twin s') (hr : LikeReceiver (s.scope s') r r') (hq : HasPart q r) :
    InStep Still (r.part q) (r'.part q) s s' fun v w t t' =>
      ∃ n, t.HasPlace (.part n q) ∧ v = .object (.list (t.part n q)) ∧
        w = .object (.list (t'.part n q)) := by
  refine inStep_bind (inStep_resolve h hr hq) fun n m t t' after found => ?_
  obtain ⟨heq, known⟩ := found
  subst heq
  exact inStep_read after.twin ⟨m, known, after.twin.left.partValue m q,
    after.twin.right.partValue m q⟩

/-! ## Bindings -/

theorem inStep_bindTo (h : s.Twin s') (hr : LikeReceiver (s.scope s') r r') {name name' : Value}
    (hname : Like (s.scope s') name name') (hv : Like (s.scope s') v w) :
    InStep Kept (r.bind name v) (r'.bind name' w) s s' fun _ _ _ _ => True := by
  refine inStep_bind (inStep_makeBinding h hname hv)
    fun _ binding t t' after found => ?_
  obtain ⟨heq, serial, b, hbinding⟩ := found
  subst heq
  refine inStep_bind (inStep_part after.twin (hr.mono (after.within h)) hr.bindings)
    fun _ _ u u' next found => ?_
  obtain ⟨n, known, heq, heq'⟩ := found
  subst heq heq'
  have left : u.Open (u.part n .bindings) := next.twin.left.open_spot known
  have right : u'.Open (u'.part n .bindings) :=
    next.twin.right.open_spot ((next.twin.hasPlace _).mpr known)
  have proper : ∀ v ∈ [binding], Part.bindings.admits v := by simp [hbinding, Part.admits]
  exact inStep_of_alone (alone_bind_ok (ListId.alone_add left binding) _)
    (alone_bind_ok (ListId.alone_add right binding) _) (.append next.twin known proper) trivial

/-- Pairs of names and values that are alike. -/
abbrev LikeAttachment (c : Scope) : Attachment → Attachment → Prop :=
  List.Forall₂ fun x y => Like c x.1 y.1 ∧ Like c x.2 y.2

theorem likeAttachment_one {c : Scope} (name : String) (hv : Like c v w) :
    LikeAttachment c (.one name v) (.one name w) := .cons ⟨.atom rfl, hv⟩ .nil

theorem likeAttachment_texts (c : Scope) {a : Attachment} (h : ∀ x ∈ a, x.1.isAtom ∧ x.2.isAtom) :
    LikeAttachment c a a :=
  List.forall₂_same.mpr fun x hx => ⟨.atom (h x hx).1, .atom (h x hx).2⟩

theorem inStep_attach {a a' : Attachment} (h : s.Twin s')
    (hr : LikeReceiver (s.scope s') r r') (ha : LikeAttachment (s.scope s') a a') :
    InStep Kept (r.attach a) (r'.attach a') s s' fun _ _ _ _ => True := by
  induction a generalizing s s' a' with
  | nil =>
      cases ha
      exact inStep_pure h trivial
  | cons x rest ih =>
      cases ha with
      | cons first others =>
        refine inStep_bind (inStep_bindTo h hr first.1 first.2) fun _ _ t t' after _ => ?_
        have within := after.within h
        exact ih after.twin (hr.mono within)
          (others.imp fun _ _ like => ⟨like.1.mono within, like.2.mono within⟩)

theorem inStep_usePool (h : s.Twin s') (hr : LikeReceiver (s.scope s') r r')
    (hv : Like (s.scope s') v w) :
    InStep Kept (r.usePool v) (r'.usePool w) s s' fun _ _ _ _ => True := by
  refine inStep_bind (inStep_name h hv) fun _ _ t t' after found => ?_
  obtain ⟨heq, name, named⟩ := found
  subst heq named
  exact inStep_attach after.twin (hr.mono (after.within h)) (likeAttachment_one "pool" (.atom rfl))

/-! ## Paths -/

theorem inStep_addPaths (h : s.Twin s') (hr : LikeReceiver (s.scope s') r r') {slot : Slot}
    (hq : HasPart (.paths slot) r) (hv : Like (s.scope s') v w) :
    InStep Kept (r.addPaths slot v) (r'.addPaths slot w) s s' fun _ _ _ _ => True := by
  refine inStep_bind (inStep_part h hr hq) fun _ _ t t' after found => ?_
  obtain ⟨n, known, heq, heq'⟩ := found
  subst heq heq'
  have like := hv.mono (after.within h)
  change InStep Kept (v.arguments >>= fun texts => (t.part n (.paths slot)).extend (texts.map .text))
    (w.arguments >>= fun texts => (t'.part n (.paths slot)).extend (texts.map .text)) t t' _
  refine inStep_bind (inStep_arguments after.twin like) fun _ texts u u' next heq => ?_
  subst heq
  have known := next.left.kept.hasPlace known
  rw [← next.left.part, ← next.right.part]
  have left : u.Open (u.part n (.paths slot)) := next.twin.left.open_spot known
  have right : u'.Open (u'.part n (.paths slot)) :=
    next.twin.right.open_spot ((next.twin.hasPlace _).mpr known)
  refine inStep_of_alone (ListId.alone_extend left _) (ListId.alone_extend right _)
    (.append next.twin known fun v hv => ?_) trivial
  obtain ⟨text, -, rfl⟩ := List.mem_map.mp hv
  rfl

end Twin

end NinjaFile
