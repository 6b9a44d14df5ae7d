import NinjaFile.Proofs.Frame.Attaching
import NinjaFile.Proofs.Frame.Rendering
import NinjaFile.Proofs.Program.Alone

/-!
# The frame of an attachment

What is attached stands at the end of one list of one statement.  Nothing else is held
differently anywhere, and what documents are rendered to differs in the blocks of this
statement only.
-/

/-!
## Handles to the same slot

What is done through a handle depends on what it points to and on nothing else of it.
-/

namespace NinjaFile

open Action Program Store

variable {α β : Type} {s : Store} {h h' : Handle}

/-- The handles lead to the same slot. -/
structure Handle.SameSlot (h h' : Handle) : Prop where
  arena : h'.arena = h.arena
  index : h'.index = h.index

/-- Handles with the same methods insist on the same kind of statement. -/
theorem Handle.expected_eq_of_mixin {m : Mixin} (mixin : Script.mixin? (.handle h) = some m)
    (mixin' : Script.mixin? (.handle h') = some m) : h'.expected = h.expected := by
  have same := mixin'.trans mixin.symm
  rw [Script.mixin?, Script.mixin?] at same
  rw [Script.mixin?] at mixin
  cases he : h.expected <;> cases he' : h'.expected <;> simp [he, he'] at mixin same ⊢

theorem alone_bind_congr {p p' : Action α} {k k' : α → Action β} (same : p'.alone s = p.alone s)
    (next : ∀ a t, p.alone s = (.ok a, t) → (k' a).alone t = (k a).alone t) :
    (p' >>= k').alone s = (p >>= k).alone s := by
  rw [alone_bind, alone_bind, same]
  cases hp : p.alone s with
  | mk r t =>
      cases r with
      | ok a => exact next a t hp
      | error fault => rfl

/-- An action that assigns nothing. -/
abbrev KeepsAssigned (p : Action α) : Prop := p.Every fun f => ∀ s : Store, (f s).assigned = s.assigned

theorem Program.Looks.keepsAssigned {p : Action α} (h : p.Looks Store.Alike) : KeepsAssigned p :=
  h.every.mono fun f same s => by rw [same s]

theorem ensures_unassigned {p : Action α} (h : KeepsAssigned p) (unassigned : s.assigned = []) :
    p.Ensures s fun _ t => t.assigned = [] := by
  intro a t hp
  have kept : (p.alone s).2.assigned = s.assigned :=
    alone_of_every (R := fun s t => t.assigned = s.assigned) (fun _ => rfl)
      (fun _ _ _ h h' => h'.trans h) (fun _ _ _ => assigned_setGuard ..) h s
  rw [hp] at kept
  exact kept.trans unassigned

theorem keepsAssigned_makeBinding (name value : Value) : KeepsAssigned (makeBinding name value) :=
  every_bind (every_ofExcept _) fun _ => every_bind (every_ofExcept _) fun _ =>
    every_update fun _ => rfl

theorem ensures_bind_unassigned (unassigned : s.assigned = []) (r : Receiver) (name value : Value) :
    (r.bind name value).Ensures s fun _ t => t.assigned = [] := by
  have list (t : Store) (ht : t.assigned = []) : (r.part .bindings).Ensures t
      fun v u => u.assigned = [] ∧ ∃ l, v = .object (.list l) := by
    refine ensures_then (ensures_unassigned (looks_resolve r).keepsAssigned ht) fun n u hu => ?_
    refine ensures_of_alone rfl ⟨hu, u.part n .bindings, ?_⟩
    change u.partValue n .bindings = _
    rw [partValue, assigned?, hu]
    rfl
  refine ensures_then (ensures_unassigned (keepsAssigned_makeBinding name value) unassigned)
    fun binding t ht => ensures_then (list t ht) ?_
  rintro v u ⟨hu, l, rfl⟩
  refine ensures_unassigned ?_ hu
  exact every_bind (every_guarded _ _ (every_update fun _ => rfl)) fun _ => trivial

namespace Handle.SameSlot

variable (same : h.SameSlot h') (kind : h'.expected = h.expected)

include same kind

theorem alone_resolve (unassigned : s.assigned = []) :
    (Receiver.handle h').resolve.alone s = (Receiver.handle h).resolve.alone s := by
  obtain ⟨serial, expected, arena, index⟩ := h
  obtain ⟨serial', _, _, _⟩ := h'
  obtain ⟨rfl, rfl⟩ := same
  obtain rfl := kind
  refine alone_bind_congr ?_ fun _ _ _ => rfl
  have look (h : Handle) (name : String) : (Value.object (.handle h)).stored? s name =
      (Value.object (.handle h)).field? s name := Value.stored?_of_unassigned unassigned _ name
  rw [Handle.statement, Handle.statement, Handle.statements, Handle.statements, Handle.place,
    Handle.place]
  simp only [alone_read_bind, look]
  rfl

theorem alone_part (unassigned : s.assigned = []) (q : Part) :
    (Receiver.part (.handle h') q).alone s = (Receiver.part (.handle h) q).alone s :=
  alone_bind_congr (same.alone_resolve kind unassigned) fun _ _ _ => rfl

theorem alone_bind (unassigned : s.assigned = []) (name value : Value) :
    (Receiver.bind (.handle h') name value).alone s = (Receiver.bind (.handle h) name value).alone s := by
  refine alone_bind_congr rfl fun binding t made => ?_
  have kept := ensures_unassigned (keepsAssigned_makeBinding name value) unassigned _ _ made
  exact alone_bind_congr (same.alone_part kind kept .bindings) fun _ _ _ => rfl

theorem alone_attach (unassigned : s.assigned = []) (pairs : Attachment) :
    (Receiver.attach (.handle h') pairs).alone s = (Receiver.attach (.handle h) pairs).alone s := by
  induction pairs generalizing s with
  | nil => rfl
  | cons pair rest ih =>
      obtain ⟨name, value⟩ := pair
      refine alone_bind_congr (same.alone_bind kind unassigned name value) fun _ t bound => ?_
      exact ih (ensures_bind_unassigned unassigned _ _ _ _ _ bound)

/-- Handles of one kind to the same slot are interchangeable. -/
theorem alone_program (unassigned : s.assigned = []) (a : Script.Attacher) :
    (a.program (.handle h')).alone s = (a.program (.handle h)).alone s := by
  cases a with
  | paths slot v => exact alone_bind_congr (same.alone_part kind unassigned _) fun _ _ _ => rfl
  | bind b =>
      cases b with
      | pool v =>
          have looks : (v.member "name").Looks Store.Alike :=
            looks_member v (by decide) (by decide)
          refine alone_bind_congr rfl fun name t seen => same.alone_attach kind ?_ _
          exact ensures_unassigned looks.keepsAssigned unassigned _ _ seen
      | _ => exact same.alone_attach kind unassigned _

end Handle.SameSlot

end NinjaFile

/-! ## Frames -/

namespace NinjaFile

open Action Program Store

namespace Store

variable {s s' : Store} {d : DocumentId} {h : Handle} {n : Node} {x : Place} {q : Part}

namespace Alike

variable (like : s.Alike s')

include like

theorem fields (n : Node) : s'.fields n = s.fields n := by
  cases n <;> simp only [Store.fields, rule, pool, build, like.rules, like.pools, like.builds]

theorem hasDocument (d : DocumentId) : s'.HasDocument d ↔ s.HasDocument d := by
  rw [HasDocument, HasDocument, like.documents]

theorem hasPlace (x : Place) : s'.HasPlace x ↔ s.HasPlace x :=
  hasPlace_congr like.hasNode like.documents x

theorem spot (x : Place) : s'.spot x = s.spot x := by
  cases x with
  | part n q => exact like.part n q
  | statements d => rw [Store.spot, Store.spot, like.document_eq]

theorem held (x : Place) : s'.held x = s.held x := by
  rw [Store.held, Store.held, like.spot, like.items]

theorem housed (h : s.Housed) : s'.Housed where
  unassigned := like.assigned.trans h.unassigned
  known x hx := by
    rw [like.spot, like.size]
    exact h.known x ((like.hasPlace x).mp hx)
  apart x y hx hy heq := by
    rw [like.spot, like.spot] at heq
    exact h.apart x y ((like.hasPlace x).mp hx) ((like.hasPlace y).mp hy) heq
  suits x hx v hv := by
    rw [like.held] at hv
    exact (h.suits x ((like.hasPlace x).mp hx) v hv).mono fun n => (like.hasNode n).mpr

end Alike

namespace Housed

theorem append (housed : s.Housed) (hx : s.HasPlace x) {items : List Value}
    (suits : ∀ v ∈ items, s.Suits x v) : (s.modifyList (s.spot x) (·.append items)).Housed where
  unassigned := housed.unassigned
  known y hy := by
    rw [spot_modifyList, size_modifyList]
    exact housed.known y hy
  apart y z hy hz heq := by
    rw [spot_modifyList, spot_modifyList] at heq
    exact housed.apart y z hy hz heq
  suits y hy v hv := by
    rw [held_append housed.known housed.apart hx hy] at hv
    refine Suits.mono (s := s) (fun _ hn => hn) ?_
    split at hv
    · next heq =>
        subst heq
        exact (List.mem_append.mp hv).elim (housed.suits y hy v) (suits v)
    · exact housed.suits y hy v hv

end Housed

/-- The document says something, which comes in these pieces, and is rendered to them when
nobody is in a list. -/
def Renders (s : Store) (d : DocumentId) (ps : List (List String × List String)) : Prop :=
  ∃ xs, List.Forall₂ s.Reads (s.held (.statements d)) xs ∧
    ps = Layout.pieces Layout.defaultIndent none xs ∧
    (s.AtRest → d.render.alone s = (.ok (Layout.assemble ps), s))

theorem Housed.renders (housed : s.Housed) (hd : s.HasDocument d) {xs : List Statement}
    (reads : List.Forall₂ s.Reads (s.held (.statements d)) xs) :
    s.Renders d (Layout.pieces Layout.defaultIndent none xs) :=
  ⟨xs, reads, rfl, fun rest => housed.alone_render hd rest reads⟩

namespace Attached

variable {v : Option Value}

theorem housed (attached : s.Attached v q s') (h : s.Housed) : s'.Housed := by
  rcases attached with like | ⟨items, n, -, has, admits, like⟩
  · exact like.housed h
  · exact like.housed (h.append has admits)

theorem fields (attached : s.Attached v q s') (n : Node) : s'.fields n = s.fields n := by
  rcases attached with like | ⟨items, m, -, -, -, like⟩
  · exact like.fields n
  · exact like.fields n

theorem hasPlace (attached : s.Attached v q s') (x : Place) : s'.HasPlace x ↔ s.HasPlace x := by
  rcases attached with like | ⟨items, n, -, -, -, like⟩
  · exact like.hasPlace x
  · exact like.hasPlace x

theorem held_eq (attached : s.Attached v q s') (h : s.Housed) (hx : s.HasPlace x)
    (hne : ∀ n, v = some n.toValue → x ≠ .part n q) : s'.held x = s.held x := by
  rcases attached with like | ⟨items, n, hn, has, -, like⟩
  · exact like.held x
  · rw [like.held]
    exact (held_append h.known h.apart has hx items).trans (if_neg (hne n hn))

/-- Blocks of other statements are as they were, and so is what parts any of them. -/
theorem renders (attached : s.Attached v q s') (h : s.Housed) (hd : s.HasDocument d) :
    ∃ old new, s.Renders d old ∧ s'.Renders d new ∧ ∀ i : Nat,
      new[i]?.map Prod.fst = old[i]?.map Prod.fst ∧
        ((s.held (.statements d))[i]? ≠ v → new[i]? = old[i]?) := by
  have hd' : s'.HasDocument d := (attached.hasPlace (.statements d)).mpr hd
  have same : s'.held (.statements d) = s.held (.statements d) :=
    attached.held_eq h (x := .statements d) hd fun _ _ heq => by cases heq
  obtain ⟨xs, hxs⟩ := h.documentReads hd
  obtain ⟨ys, hys⟩ := (attached.housed h).documentReads hd'
  refine ⟨_, _, h.renders hd hxs, (attached.housed h).renders hd' hys, fun i => ?_⟩
  rw [same] at hys
  refine pieces_of_reads hxs hys attached.fields (fun n hn hne r hr => ?_) i
  obtain ⟨o, heq, -, has⟩ := h.suits (.statements d) hd _ hn
  cases heq
  have place : s.HasPlace (.part n r) := ⟨has n (Object.node?_ofNode n), hr⟩
  exact attached.held_eq h place fun m hm heq => by
    cases heq
    exact hne hm.symm

end Attached

end Store

end NinjaFile
