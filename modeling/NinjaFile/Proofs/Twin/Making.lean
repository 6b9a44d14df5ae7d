import NinjaFile.Proofs.Twin.Attributes

/-!
# Nodes that join twins

A new node has lists that are no places yet, and they hold the same on either side,
whatever their ownership.  So it is the same node that joins both twins.
-/

namespace NinjaFile

open Action Program

/-! ## Room for a node -/

namespace Store

variable {s t : Store} {n : Node} {place : Part → ListId}

theorem Still.room (h : s.Still t) (room : s.Room n place) : t.Room n place := by
  obtain ⟨_, _, _, _, -, rfl⟩ := h
  exact ⟨fun q hq => ⟨(room.loose q hq).known, (room.loose q hq).free⟩, room.distinct, room.proper⟩

theorem Still.items (h : s.Still t) (l : ListId) : (t.list l).items = (s.list l).items := by
  obtain ⟨_, _, _, _, -, rfl⟩ := h
  rfl

/-! ### Fields of a new node -/

theorem fields_insertRule (s : Store) (r : RuleRecord) :
    (s.insertRule r).2.fields (.rule ⟨s.rules.size⟩) = (r.name, false) :=
  congrArg (fun r : RuleRecord => (r.name, false)) ((Table.get_insert s.rules _ _).trans (if_pos rfl))

theorem fields_insertPool (s : Store) (p : PoolRecord) :
    (s.insertPool p).2.fields (.pool ⟨s.pools.size⟩) = (p.name, p.builtIn) :=
  congrArg (fun p : PoolRecord => (p.name, p.builtIn))
    ((Table.get_insert s.pools _ _).trans (if_pos rfl))

theorem fields_insertBuild (s : Store) (b : BuildRecord) :
    (s.insertBuild b).2.fields (.build ⟨s.builds.size⟩) = (b.ruleName, false) :=
  congrArg (fun b : BuildRecord => (b.ruleName, false))
    ((Table.get_insert s.builds _ _).trans (if_pos rfl))

/-! ### Lists -/

namespace Tidy

theorem kept_grown (h : s.Tidy) (ownership : Ownership) (k : Nat) :
    s.Kept (s.grown ownership k) := by
  induction k with
  | zero => exact .refl s
  | succ k ih =>
      have tidy := (h.recast_grown ownership k).tidy
      exact ih.trans (.of_recast (tidy.recast_insertList _ _ _) fun n q hq =>
        tidy.owner_insertList hq _)

theorem spot_grown (s : Store) (ownership : Ownership) (k : Nat) (x : Place) :
    (s.grown ownership k).spot x = s.spot x := by
  induction k with
  | zero => rfl
  | succ k ih => exact (spot_insertList _ _ x).trans ih

theorem room_grown (h : s.Tidy) (ownership : Ownership) {rank : Part → Nat} {k : Nat}
    (bound : ∀ q ∈ n.parts, rank q < k)
    (distinct : ∀ q ∈ n.parts, ∀ r ∈ n.parts, rank q = rank r → q = r) :
    (s.grown ownership k).Room n fun q => ⟨s.lists.size + rank q⟩ where
  loose q hq := by
    have recast := h.recast_grown ownership k
    refine h.loose_of_le (Nat.le_add_right _ _) ?_ recast.nodes recast.documents
      fun x _ => spot_grown s ownership k x
    rw [size_grown]
    exact Nat.add_lt_add_left (bound q hq) _
  distinct q hq r hr heq := distinct q hq r hr (by simpa using heq)
  proper q hq v hv := by
    rw [list_grown ownership s (Nat.le_add_right _ _) (Nat.add_lt_add_left (bound q hq) _)] at hv
    cases hv

end Tidy

theorem Room.congr (h : s.Room n place) {m : Node} (parts : m.parts = n.parts) :
    s.Room m place where
  loose q hq := h.loose q (parts ▸ hq)
  distinct q hq r hr := h.distinct q (parts ▸ hq) r (parts ▸ hr)
  proper q hq := h.proper q (parts ▸ hq)

theorem Room.append (h : s.Room n place) {q : Part} (hq : q ∈ n.parts) {items : List Value}
    (proper : ∀ v ∈ items, q.admits v) :
    (s.modifyList (place q) (·.append items)).Room n place where
  loose r hr :=
    ⟨by rw [size_modifyList]; exact (h.loose r hr).known, fun x hx => by
      rw [spot_modifyList]
      exact (h.loose r hr).free x hx⟩
  distinct := h.distinct
  proper r hr v hv := by
    rw [items_append_eq] at hv
    split at hv
    · next heq =>
        obtain rfl : q = r := h.distinct q hq r hr heq.1
        rcases List.mem_append.mp hv with hv | hv
        · exact h.proper q hq v hv
        · exact proper v hv
    · exact h.proper r hr v hv

theorem Joins.kept (h : s.Joins n place t) : s.Kept t where
  nodes m hm := (h.nodes m).mpr (.inl hm)
  documents := Nat.le_of_eq (congrArg Table.size h.documents.symm)
  document d _ := by rw [document, document, h.documents]
  sources := Nat.le_of_eq (by rw [h.same])
  statements d := by
    rw [stated, stated, h.documents]
    split
    · next hd => exact h.held (x := .statements d) hd
    · rfl
  owners m q hq := h.owner hq

end Store

namespace Twin

open Store

variable {s s' t t' : Store} {n : Node} {place place' : Part → ListId}

/-- Room for the same node in two stores. -/
structure Rooms (s s' : Store) (n : Node) (place place' : Part → ListId) : Prop where
  left : s.Room n place
  right : s'.Room n place'
  same : ∀ q ∈ n.parts, (s'.list (place' q)).items = (s.list (place q)).items

theorem Rooms.looked (h : Rooms s s' n place place') (after : After Still s s' t t') :
    Rooms t t' n place place' where
  left := after.left.room h.left
  right := after.right.room h.right
  same q hq := by rw [after.left.items, after.right.items, h.same q hq]

theorem Rooms.congr (h : Rooms s s' n place place') {m : Node} (parts : m.parts = n.parts) :
    Rooms s s' m place place' where
  left := h.left.congr parts
  right := h.right.congr parts
  same q hq := h.same q (parts ▸ hq)

theorem rooms_grown (h : s.Twin s') (o o' : Ownership) (rank : Part → Nat) {k : Nat}
    (bound : ∀ q ∈ n.parts, rank q < k)
    (distinct : ∀ q ∈ n.parts, ∀ r ∈ n.parts, rank q = rank r → q = r) :
    Rooms (s.grown o k) (s'.grown o' k) n (fun q => ⟨s.lists.size + rank q⟩)
      (fun q => ⟨s'.lists.size + rank q⟩) where
  left := h.left.room_grown o bound distinct
  right := h.right.room_grown o' bound distinct
  same q hq := by
    rw [list_grown o s (Nat.le_add_right _ _) (Nat.add_lt_add_left (bound q hq) _),
      list_grown o' s' (Nat.le_add_right _ _) (Nat.add_lt_add_left (bound q hq) _)]
    rfl

theorem After.grown (h : s.Twin s') (o o' : Ownership) (k : Nat) :
    After Kept s s' (s.grown o k) (s'.grown o' k) :=
  .of_recast h (h.left.recast_grown o k) (h.right.recast_grown o' k) (h.left.kept_grown o k)
    (h.right.kept_grown o' k)

theorem Rooms.append (h : Rooms s s' n place place') {q : Part} (hq : q ∈ n.parts)
    {items : List Value} (proper : ∀ v ∈ items, q.admits v) :
    Rooms (s.modifyList (place q) (·.append items)) (s'.modifyList (place' q) (·.append items)) n
      place place' where
  left := h.left.append hq proper
  right := h.right.append hq proper
  same r hr := by
    rw [items_append_eq, items_append_eq]
    by_cases heq : r = q
    · subst heq
      rw [if_pos ⟨rfl, (h.right.loose r hr).known⟩, if_pos ⟨rfl, (h.left.loose r hr).known⟩,
        h.same r hr]
    · rw [if_neg, if_neg, h.same r hr]
      · exact fun both => heq (h.left.distinct q hq r hr both.1).symm
      · exact fun both => heq (h.right.distinct q hq r hr both.1).symm

theorem After.fill (h : s.Twin s') (rooms : Rooms s s' n place place') {q : Part}
    (hq : q ∈ n.parts) (items : List Value) :
    After Kept s s' (s.modifyList (place q) (·.append items))
      (s'.modifyList (place' q) (·.append items)) := by
  have left := h.left.recast_append (rooms.left.loose q hq) items
  have right := h.right.recast_append (rooms.right.loose q hq) items
  exact .of_recast h left right (.of_recast left fun _ _ _ => owner_append ..)
    (.of_recast right fun _ _ _ => owner_append ..)

theorem After.joins (h : s.Twin s') (rooms : Rooms s s' n place place')
    (left : s.Joins n place t) (right : s'.Joins n place' t') (fields : t'.fields n = t.fields n) :
    After Kept s s' t t' :=
  ⟨h.joins left right rooms.left rooms.right fields rooms.same, left.kept, right.kept, [],
    by rw [left.same]; simp, by rw [right.same]; simp⟩

/-! ## Bindings and other fixed statements -/

theorem inStep_makeObject (h : s.Twin s') (f : Serial → Object) :
    InStep Still (makeObject f) (makeObject f) s s' fun v w _ _ =>
      w = v ∧ ∃ n, v = .object (f n) :=
  inStep_of_alone rfl rfl (.withSerial h (congrArg (· + 1) h.serial))
    ⟨congrArg (Value.object <| f ·) h.serial, _, rfl⟩

variable {v w name name' : Value}

theorem inStep_makeBinding (h : s.Twin s') (hname : Like (s.scope s') name name')
    (hv : Like (s.scope s') v w) :
    InStep Still (makeBinding name v) (makeBinding name' w) s s' fun x y _ _ =>
      y = x ∧ ∃ n b, x = .object (.binding n b) := by
  refine inStep_bind (inStep_toArgument h hname) fun _ name t t' after heq => ?_
  subst heq
  refine inStep_bind (inStep_toArgument after.twin (hv.mono (after.within h)))
    fun _ value t t' after heq => ?_
  subst heq
  exact (inStep_makeObject after.twin fun n => .binding n ⟨name, value⟩).mono
    fun x y _ _ ⟨same, n, heq⟩ => ⟨same, n, _, heq⟩

theorem inStep_makeText (h : s.Twin s') (hv : Like (s.scope s') v w) {f : String → Serial → Object}
    (hf : ∀ text n, (f text n).isFrozen) :
    InStep Still (ofExcept v.toArgument >>= fun text => makeObject (f text))
      (ofExcept w.toArgument >>= fun text => makeObject (f text)) s s' fun x y t t' =>
        Like (t.scope t') x y := by
  refine inStep_bind (inStep_toArgument h hv) fun _ text t t' after heq => ?_
  subst heq
  refine (inStep_makeObject after.twin _).mono fun x y _ _ found => ?_
  obtain ⟨same, n, heq⟩ := found
  rw [same, heq]
  exact .fixed (hf _ n)

theorem inStep_makeDefaults (h : s.Twin s') (hv : Like (s.scope s') v w) :
    InStep Still (makeDefaults v) (makeDefaults w) s s' fun x y t t' => Like (t.scope t') x y := by
  refine inStep_bind (inStep_arguments h hv) fun _ outputs t t' after heq => ?_
  subst heq
  refine (inStep_makeObject after.twin _).mono fun x y _ _ found => ?_
  obtain ⟨same, n, heq⟩ := found
  rw [same, heq]
  exact .fixed rfl

/-! ## Rules and pools -/

section OneList

variable {α β : Type} {Q : α → β → Store → Store → Prop}

theorem inStep_withBinding (h : s.Twin s') (key : String) (hv : Like (s.scope s') v w)
    (o o' : Ownership) {k : ListId → Action α} {k' : ListId → Action β}
    (hk : ∀ l l' t t', t.Twin t' →
      (∀ n : Node, n.parts = [.bindings] → Rooms t t' n (fun _ => l) (fun _ => l')) →
      InStep Kept (k l) (k' l') t t' Q) :
    InStep Kept
      (do
        let l ← ListId.make o false []
        let binding ← makeBinding (.text key) v
        let _ ← l.add binding
        k l)
      (do
        let l ← ListId.make o' false []
        let binding ← makeBinding (.text key) w
        let _ ← l.add binding
        k' l)
      s s' Q := by
  have alone (s : Store) (o : Ownership) := alone_listMake o s 0
  let n : Node := .rule ⟨0⟩
  have bindings : Part.bindings ∈ n.parts := bindings_mem_parts n
  have rooms : Rooms (s.grown o 1) (s'.grown o' 1) n (fun _ => ⟨s.lists.size⟩)
      (fun _ => ⟨s'.lists.size⟩) :=
    rooms_grown h o o' (fun _ => 0) (by simp) (by simp [n, Node.parts])
  refine inStep_bind (Q := fun l l' t t' => Rooms t t' n (fun _ => l) (fun _ => l'))
    (inStep_of_alone (alone s o) (alone s' o') (.grown h o o' 1) rooms)
    fun l l' t t' after rooms => ?_
  have like := hv.mono (after.within h)
  refine inStep_bind (inStep_makeBinding after.twin (.atom rfl) like)
    fun _ x u u' next found => ?_
  obtain ⟨heq, serial, b, hx⟩ := found
  subst heq
  have rooms := rooms.looked next
  have left := next.twin.left.opens (rooms.left.loose .bindings bindings).known
  have right := next.twin.right.opens (rooms.right.loose .bindings bindings).known
  have proper : ∀ v ∈ [x], Part.bindings.admits v := by simp [hx, Part.admits]
  refine inStep_bind (Q := fun _ _ t t' => Rooms t t' n (fun _ => l) (fun _ => l'))
    (inStep_of_alone (ListId.alone_add left x) (ListId.alone_add right x)
      (.fill next.twin rooms bindings [x]) (rooms.append bindings proper))
    fun _ _ r r' last rooms => ?_
  exact hk l l' r r' last.twin fun m parts => rooms.congr parts

/-- Ownerships that a node can be given, or what is none for the same reason. -/
abbrev LikeOwnership (v w : Value) : Prop :=
  Agree (fun _ _ => True) v.ownershipOf w.ownershipOf

theorem Like.ownership {c : Scope} (h : Like c v w) : LikeOwnership v w :=
  (Agree.of_eq h.ownershipOf_eq).mono fun _ _ _ => trivial

variable {own own' : Value}

theorem size_eq_of_nodes {a b : Nat} (h : ∀ i, i < b ↔ i < a) : b = a :=
  Nat.le_antisymm (Nat.not_lt.mp fun lt => Nat.lt_irrefl a ((h a).mp lt))
    (Nat.not_lt.mp fun lt => Nat.lt_irrefl b ((h b).mpr lt))

theorem inStep_ruleMake (h : s.Twin s') (hname : Like (s.scope s') name name')
    (hv : Like (s.scope s') v w) (howner : LikeOwnership own own') :
    InStep Kept (RuleId.make name v own) (RuleId.make name' w own') s s' fun r r' t _ =>
      r' = r ∧ t.HasNode (.rule r) := by
  rw [RuleId.make, RuleId.make]
  refine inStep_bind (inStep_toArgument h hname) fun _ name t t' after heq => ?_
  subst heq
  refine inStep_bind (inStep_ofExcept (Q := fun _ _ _ _ => True) after.twin howner)
    fun o o' u u' next _ => ?_
  have like := hv.mono ((after.within h).trans (next.within after.twin))
  refine inStep_withBinding next.twin "command" like o o' fun l l' t t' twin rooms => ?_
  have joins := joins_insertRule t ⟨name, l⟩
  have joins' := joins_insertRule t' ⟨name, l'⟩
  have fields := (fields_insertRule t' ⟨name, l'⟩).trans (fields_insertRule t ⟨name, l⟩).symm
  have size : t'.rules.size = t.rules.size := size_eq_of_nodes fun i => twin.nodes (.rule ⟨i⟩)
  rw [size] at joins' fields
  exact inStep_of_alone rfl rfl (.joins twin (rooms _ rfl) joins joins' fields)
    ⟨congrArg RuleId.mk size, (joins.nodes _).mpr (.inr rfl)⟩

theorem inStep_poolMake (h : s.Twin s') (hname : Like (s.scope s') name name')
    (hv : Like (s.scope s') v w) (howner : LikeOwnership own own') (builtIn : Bool) :
    InStep Kept (PoolId.make name v own (.bool builtIn)) (PoolId.make name' w own' (.bool builtIn))
      s s' fun p p' t _ => p' = p ∧ t.HasNode (.pool p) := by
  rw [PoolId.make, PoolId.make]
  refine inStep_bind (inStep_toArgument h hname) fun _ name t t' after heq => ?_
  subst heq
  refine inStep_bind (inStep_ofExcept (Q := fun _ _ _ _ => True) after.twin howner)
    fun o o' u u' next _ => ?_
  have like := hv.mono ((after.within h).trans (next.within after.twin))
  refine inStep_withBinding next.twin "depth" like o o' fun l l' t t' twin rooms => ?_
  have joins := joins_insertPool t ⟨name, l, builtIn⟩
  have joins' := joins_insertPool t' ⟨name, l', builtIn⟩
  have fields := (fields_insertPool t' ⟨name, l', builtIn⟩).trans
    (fields_insertPool t ⟨name, l, builtIn⟩).symm
  have size : t'.pools.size = t.pools.size := size_eq_of_nodes fun i => twin.nodes (.pool ⟨i⟩)
  rw [size] at joins' fields
  exact inStep_of_alone rfl rfl (.joins twin (rooms _ rfl) joins joins' fields)
    ⟨congrArg PoolId.mk size, (joins.nodes _).mpr (.inr rfl)⟩

end OneList

/-! ## Builds -/

/-- The lists of a build that were made one after the other. -/
private def rowFrom (l : ListId) : Part → ListId := fun q => ⟨l.index + partRank q⟩

private def recordFrom (ruleName : String) (l : ListId) : BuildRecord :=
  ⟨ruleName, .ofFn fun slot => rowFrom l (.paths slot), rowFrom l .bindings⟩

private theorem place_recordFrom (ruleName : String) (l : ListId) :
    (recordFrom ruleName l).place = rowFrom l := by
  funext q
  cases q with
  | bindings => rfl
  | paths slot => exact Slots.get_ofFn _ slot

private theorem inStep_makeLists {α β : Type} {Q : α → β → Store → Store → Prop} (h : s.Twin s')
    (o o' : Ownership) {k : Slots ListId → ListId → Action α} {k' : Slots ListId → ListId → Action β}
    (hk : ∀ l l' t t', After Kept s s' t t' → Rooms t t' (.build ⟨0⟩) (rowFrom l) (rowFrom l') →
      InStep Kept (k (.ofFn fun slot => rowFrom l (.paths slot)) (rowFrom l .bindings))
        (k' (.ofFn fun slot => rowFrom l' (.paths slot)) (rowFrom l' .bindings)) t t' Q) :
    InStep Kept
      (do
        let paths ← makeSlots o
        k paths (← ListId.make o false []))
      (do
        let paths ← makeSlots o'
        k' paths (← ListId.make o' false []))
      s s' Q := by
  let l : ListId := ⟨s.lists.size⟩
  let l' : ListId := ⟨s'.lists.size⟩
  have rooms : Rooms (s.grown o 7) (s'.grown o' 7) (.build ⟨0⟩) (rowFrom l) (rowFrom l') :=
    rooms_grown h o o' partRank (fun q _ => partRank_lt q) (fun _ _ _ _ => partRank_injective)
  have made (s : Store) (o : Ownership) {γ : Type} (k : Slots ListId → ListId → Action γ) :
      alone (makeSlots o >>= fun paths => ListId.make o false [] >>= k paths) s =
        (k (.ofFn fun slot => rowFrom ⟨s.lists.size⟩ (.paths slot))
          (rowFrom ⟨s.lists.size⟩ .bindings)).alone (s.grown o 7) :=
    (alone_bind_ok (alone_makeSlots o s) _).trans (alone_bind_ok (alone_listMake o s 6) _)
  have after := After.grown h o o' 7
  exact .of_leading after (made s o k) (made s' o' k') (hk l l' _ _ after rooms)

theorem inStep_buildMake {own own' : Value} (h : s.Twin s') (hrule : Like (s.scope s') name name')
    (hv : Like (s.scope s') v w) (howner : LikeOwnership own own') :
    InStep Kept (BuildId.make name v own) (BuildId.make name' w own') s s' fun b b' t _ =>
      b' = b ∧ t.HasNode (.build b) := by
  rw [BuildId.make, BuildId.make]
  refine inStep_bind (inStep_name h hrule) fun _ _ t t' after found => ?_
  obtain ⟨heq, ruleName, named⟩ := found
  subst heq named
  refine inStep_bind (inStep_ofExcept (Q := fun _ _ _ _ => True) after.twin howner)
    fun o o' u u' next _ => ?_
  have within := (after.within h).trans (next.within after.twin)
  refine inStep_makeLists next.twin o o' fun l l' t t' after rooms => ?_
  have like := hv.mono (within.trans (after.within next.twin))
  refine inStep_bind (inStep_arguments after.twin like) fun _ texts u u' next heq => ?_
  subst heq
  have rooms := rooms.looked next
  have outputs : Part.paths .outputs ∈ (Node.build ⟨0⟩).parts := paths_mem_parts _ _
  have left := next.twin.left.opens (rooms.left.loose _ outputs).known
  have right := next.twin.right.opens (rooms.right.loose _ outputs).known
  have proper : ∀ v ∈ texts.map Value.text, (Part.paths .outputs).admits v := by
    rintro _ hv
    obtain ⟨text, -, rfl⟩ := List.mem_map.mp hv
    rfl
  refine inStep_bind (Q := fun _ _ t t' => Rooms t t' (.build ⟨0⟩) (rowFrom l) (rowFrom l'))
    (inStep_of_alone (ListId.alone_extend left _) (ListId.alone_extend right _)
      (.fill next.twin rooms outputs _) (rooms.append outputs proper)) fun _ _ t t' after rooms => ?_
  have twin := after.twin
  have joins := joins_insertBuild t (recordFrom ruleName l)
  have joins' := joins_insertBuild t' (recordFrom ruleName l')
  rw [place_recordFrom] at joins joins'
  have fields := (fields_insertBuild t' (recordFrom ruleName l')).trans
    (fields_insertBuild t (recordFrom ruleName l)).symm
  have size : t'.builds.size = t.builds.size := size_eq_of_nodes fun i => twin.nodes (.build ⟨i⟩)
  rw [size] at joins' fields
  have rooms := rooms.congr (m := .build ⟨t.builds.size⟩) rfl
  exact inStep_of_alone rfl rfl (.joins twin rooms joins joins' fields)
    ⟨congrArg BuildId.mk size, (joins.nodes _).mpr (.inr rfl)⟩

end Twin

end NinjaFile
