import NinjaFile.Proofs.Document.Making
import NinjaFile.Proofs.Twin.Values

/-!
# Places

A store holds values in the parts of its nodes and in the statements of its documents.
In a tidy store each of these places has a list of its own that nobody is in.  Which list
that is may change, for a node that moves to another ownership, but not what it holds.
-/

namespace NinjaFile

open Action Program

/-- Where values are held. -/
inductive Place where
  | part (n : Node) (q : Part)
  | statements (d : DocumentId)
deriving DecidableEq, Repr

/-- A part holds bindings, or the paths of a slot. -/
def Part.admits : Part → Value → Bool
  | .bindings, .object (.binding ..) => true
  | .paths _, .text _ => true
  | _, _ => false

namespace Part

variable {c : Twin.Scope} {q : Part} {v w : Value}

theorem like_of_admits (h : q.admits v) : Twin.Like c v v := by
  cases v with
  | text text => exact .atom rfl
  | object o =>
      cases o with
      | binding serial b => exact .fixed rfl
      | _ => cases q <;> cases h
  | _ => cases q <;> cases h

theorem eq_of_admits (h : q.admits v) (like : Twin.Like c v w) : w = v := by
  cases v with
  | text text => exact like.eq_of_atom rfl
  | object o =>
      cases o with
      | binding serial b => exact like.eq_of_frozen rfl
      | _ => cases q <;> cases h
  | _ => cases q <;> cases h

end Part

/-- The lists of a build by its parts. -/
def BuildRecord.place (b : BuildRecord) : Part → ListId
  | .bindings => b.bindings
  | .paths slot => b.paths.get slot

namespace Store

def HasDocument (s : Store) (d : DocumentId) : Prop := d.index < s.documents.size

def HasPlace (s : Store) : Place → Prop
  | .part n q => s.HasNode n ∧ q ∈ n.parts
  | .statements d => s.HasDocument d

theorem not_hasNode_ofFiles (files : FileTree) (n : Node) : ¬ (Store.ofFiles files).HasNode n := by
  cases n <;> exact Nat.not_lt_zero _

theorem not_hasPlace_ofFiles (files : FileTree) (x : Place) : ¬ (Store.ofFiles files).HasPlace x := by
  cases x with
  | part n q => exact fun h => not_hasNode_ofFiles files n h.1
  | statements d => exact Nat.not_lt_zero _

/-- The list of a place. -/
def spot (s : Store) : Place → ListId
  | .part n q => s.part n q
  | .statements d => (s.document d).arena.statements

def held (s : Store) (x : Place) : List Value := (s.list (s.spot x)).items

def owner (s : Store) (x : Place) : Ownership := (s.list (s.spot x)).ownership

/-- A store that nobody is at work on. -/
structure Tidy (s : Store) : Prop where
  unassigned : s.assigned = []
  guarded : ∀ l : ListId, l.index < s.lists.size →
    (s.list l).guard = .ofOwnership (s.list l).ownership (s.list l).blocking
  known : ∀ x, s.HasPlace x → (s.spot x).index < s.lists.size
  apart : ∀ x y, s.HasPlace x → s.HasPlace y → s.spot x = s.spot y → x = y
  proper : ∀ n q, s.HasPlace (.part n q) → ∀ v ∈ s.held (.part n q), q.admits v
  phony : ∀ d, s.HasDocument d → s.HasNode (.rule (s.document d).phony)
  console : ∀ d, s.HasDocument d → s.HasNode (.pool (s.document d).console)

/-- The same is said as before, maybe by other lists. -/
structure Recast (s t : Store) : Prop where
  tidy : t.Tidy
  serial : t.serial = s.serial
  files : t.files = s.files
  logging : t.logging = s.logging
  sources : t.sources = s.sources
  documents : t.documents = s.documents
  nodes : ∀ n, t.HasNode n ↔ s.HasNode n
  fields : ∀ n, s.HasNode n → t.fields n = s.fields n
  held : ∀ x, s.HasPlace x → t.held x = s.held x

variable {s t u : Store}

theorem hasPlace_congr (nodes : ∀ n, t.HasNode n ↔ s.HasNode n)
    (documents : t.documents = s.documents) (x : Place) : t.HasPlace x ↔ s.HasPlace x := by
  cases x with
  | part n q => exact and_congr_left' (nodes n)
  | statements d => rw [HasPlace, HasPlace, HasDocument, HasDocument, documents]

namespace Recast

theorem hasPlace (h : s.Recast t) (x : Place) : t.HasPlace x ↔ s.HasPlace x :=
  hasPlace_congr h.nodes h.documents x

theorem refl (h : s.Tidy) : s.Recast s :=
  ⟨h, rfl, rfl, rfl, rfl, rfl, fun _ => Iff.rfl, fun _ _ => rfl, fun _ _ => rfl⟩

theorem trans (h : s.Recast t) (h' : t.Recast u) : s.Recast u where
  tidy := h'.tidy
  serial := h'.serial.trans h.serial
  files := h'.files.trans h.files
  logging := h'.logging.trans h.logging
  sources := h'.sources.trans h.sources
  documents := h'.documents.trans h.documents
  nodes n := (h'.nodes n).trans (h.nodes n)
  fields n hn := (h'.fields n ((h.nodes n).mpr hn)).trans (h.fields n hn)
  held x hx := (h'.held x ((h.hasPlace x).mpr hx)).trans (h.held x hx)

end Recast

namespace Tidy

theorem opens (h : s.Tidy) {l : ListId} (hl : l.index < s.lists.size) : s.Open l :=
  ⟨hl, by rw [h.guarded l hl]; exact Guard.free_ofOwnership _ _⟩

theorem open_spot (h : s.Tidy) {x : Place} (hx : s.HasPlace x) : s.Open (s.spot x) :=
  h.opens (h.known x hx)

theorem bare (h : s.Tidy) (i : Identity) : s.Bare i := fun name => by
  rw [assigned?, h.unassigned]
  rfl

theorem stored? (h : s.Tidy) (v : Value) (name : String) : v.stored? s name = v.field? s name :=
  Value.stored?_of_unassigned h.unassigned v name

/-! ## Lists that are no places -/

theorem recast (h : s.Tidy) {lists : Table GuardedList} (size : s.lists.size ≤ lists.size)
    (guarded : ∀ i < lists.size, (lists.get i).guard =
      .ofOwnership (lists.get i).ownership (lists.get i).blocking)
    (same : ∀ x, s.HasPlace x → (lists.get (s.spot x).index).items = s.held x) :
    s.Recast { s with lists := lists } where
  tidy :=
    { unassigned := h.unassigned
      guarded := fun l hl => guarded l.index hl
      known := fun x hx => Nat.lt_of_lt_of_le (h.known x hx) size
      apart := h.apart
      proper := fun n q hq v hv => h.proper n q hq v (same (.part n q) hq ▸ hv)
      phony := h.phony
      console := h.console }
  serial := rfl
  files := rfl
  logging := rfl
  sources := rfl
  documents := rfl
  nodes _ := Iff.rfl
  fields _ _ := rfl
  held := same

end Tidy

/-- A list that is there and is not that of a place. -/
structure Loose (s : Store) (l : ListId) : Prop where
  known : l.index < s.lists.size
  free : ∀ x, s.HasPlace x → s.spot x ≠ l

namespace Tidy

theorem loose_of_le (h : s.Tidy) {l : ListId} (hl : s.lists.size ≤ l.index)
    (known : l.index < t.lists.size) (nodes : ∀ n, t.HasNode n ↔ s.HasNode n)
    (documents : t.documents = s.documents) (spot : ∀ x, s.HasPlace x → t.spot x = s.spot x) :
    t.Loose l where
  known := known
  free x hx heq := by
    have hx := (hasPlace_congr nodes documents x).mp hx
    have := h.known x hx
    rw [← spot x hx, heq] at this
    omega

@[simp] theorem spot_insertList (s : Store) (l : GuardedList) (x : Place) :
    (s.insertList l).2.spot x = s.spot x := by
  cases x with
  | part n q => exact part_insertList ..
  | statements d => rfl

theorem owner_insertList (h : s.Tidy) {x : Place} (hx : s.HasPlace x) (l : GuardedList) :
    (s.insertList l).2.owner x = s.owner x := by
  rw [owner, spot_insertList, list_insertList, if_neg (Nat.ne_of_lt (h.known x hx))]
  rfl

theorem loose_insertList (h : s.Tidy) (l : GuardedList) :
    (s.insertList l).2.Loose ⟨s.lists.size⟩ :=
  h.loose_of_le (Nat.le_refl _) (by simp [insertList]) (fun _ => Iff.rfl) rfl
    fun x _ => spot_insertList s l x

theorem recast_insertList (h : s.Tidy) (ownership : Ownership) (blocking : Bool)
    (items : List Value) : s.Recast (s.insertList (.make ownership blocking items)).2 := by
  refine h.recast ?_ (fun i hi => ?_) fun x hx => ?_
  · simp
  · rw [Table.size_insert] at hi
    rw [Table.get_insert]
    split
    · rfl
    · exact h.guarded ⟨i⟩ (Nat.lt_of_le_of_ne (Nat.lt_succ_iff.mp hi) ‹_›)
  · rw [Table.get_insert, if_neg (Nat.ne_of_lt (h.known x hx))]
    rfl

theorem recast_append (h : s.Tidy) {l : ListId} (hl : s.Loose l) (items : List Value) :
    s.Recast (s.modifyList l (·.append items)) := by
  refine h.recast ?_ (fun i hi => ?_) fun x hx => ?_
  · simp
  · rw [Table.size_modify] at hi
    rw [Table.get_modify]
    split
    · exact h.guarded ⟨i⟩ hi
    · exact h.guarded ⟨i⟩ hi
  · rw [Table.get_modify, if_neg]
    · rfl
    · rintro ⟨heq, -⟩
      exact hl.free x hx (ListId.mk.injEq .. ▸ heq.symm)

theorem recast_grown (h : s.Tidy) (ownership : Ownership) (n : Nat) :
    s.Recast (s.grown ownership n) := by
  induction n with
  | zero => exact .refl h
  | succ n ih => exact ih.trans (ih.tidy.recast_insertList _ _ _)

end Tidy

/-! ## Other parts -/

theorem spot_setPart {n : Node} {q : Part} (hq : s.HasPlace (.part n q)) (l : ListId) {x : Place}
    (hx : s.HasPlace x) :
    (s.setPart n q l).spot x = if x = .part n q then l else s.spot x := by
  cases x with
  | statements d =>
      rw [if_neg (by simp), spot, document, setPart_eq]
      rfl
  | part m r =>
      by_cases hm : m = n
      · subst hm
        refine (part_setPart hq.1 hq.2 hx.2 l).trans ?_
        by_cases hr : r = q <;> simp [hr, spot]
      · rw [if_neg (by simp [hm])]
        exact part_setPart_of_ne hm s q r l

namespace Tidy

theorem recast_setPart (h : s.Tidy) {n : Node} {q : Part} (hq : s.HasPlace (.part n q))
    {l : ListId} (hl : s.Loose l) (same : (s.list l).items = s.held (.part n q)) :
    s.Recast (s.setPart n q l) := by
  have nodes := hasNode_setPart s n q l
  have documents := documents_setPart s n q l
  have hasPlace := hasPlace_congr nodes documents
  have spot {x : Place} (hx : s.HasPlace x) := spot_setPart hq l hx
  have held (x : Place) (hx : s.HasPlace x) : (s.setPart n q l).held x = s.held x := by
    rw [held, spot hx, list_setPart]
    split
    · next heq => rw [same, heq]
    · rfl
  refine ⟨⟨?_, ?_, ?_, ?_, ?_, ?_, ?_⟩, ?_, ?_, ?_, ?_, documents, nodes,
    fun m _ => fields_setPart s n q l m, held⟩
  · rw [setPart_eq]
    exact h.unassigned
  · rw [lists_setPart]
    intro j hj
    rw [list_setPart]
    exact h.guarded j hj
  · intro x hx
    rw [hasPlace] at hx
    rw [spot hx, lists_setPart]
    split
    · exact hl.known
    · exact h.known x hx
  · intro x y hx hy heq
    rw [hasPlace] at hx hy
    rw [spot hx, spot hy] at heq
    split at heq <;> split at heq
    · next hx hy => rw [hx, hy]
    · exact absurd heq.symm (hl.free y hy)
    · exact absurd heq (hl.free x hx)
    · exact h.apart x y hx hy heq
  · intro m r hr v hv
    rw [hasPlace] at hr
    rw [held _ hr] at hv
    exact h.proper m r hr v hv
  · simp only [HasDocument, document, documents, nodes]
    exact h.phony
  · simp only [HasDocument, document, documents, nodes]
    exact h.console
  all_goals rw [setPart_eq]

theorem alone_adoptPart (h : s.Tidy) {n : Node} {q : Part} (hq : s.HasPlace (.part n q))
    (ownership : Ownership) :
    ∃ t, (n.adoptPart (.ownership ownership) q).alone s = (.ok (), t) ∧ s.Recast t ∧
      ∀ y, s.HasPlace y → t.owner y = if y = .part n q then ownership else s.owner y := by
  have value : s.partValue n q = .object (.list (s.part n q)) := by
    rw [partValue, h.bare]
    rfl
  have own : s.listOwnership (s.part n q) = .ownership (s.owner (.part n q)) := by
    rw [listOwnership, h.bare]
    rfl
  have blocking : s.listBlocking (s.part n q) = .bool (s.list (s.part n q)).blocking := by
    rw [listBlocking, h.bare]
    rfl
  rw [adoptPart_eq, alone_read_bind, value]
  dsimp only
  by_cases same : ownership = s.owner (.part n q)
  · have kept : (ListId.adopt (s.part n q) (.ownership ownership)).alone s =
        (.ok (s.part n q), s) := by
      rw [ListId.adopt, alone_read_bind, own, same, if_pos]
      · rfl
      · simp [Value.isSame, Value.identity?]
    rw [alone_bind_ok kept, alone_modify, putPart_eq (h.bare _), setPart_same]
    refine ⟨s, rfl, .refl h, fun y _ => ?_⟩
    split
    · next hy => rw [hy, same]
    · rfl
  · let items := s.held (.part n q)
    let made := GuardedList.make ownership (s.list (s.part n q)).blocking items
    let t := (s.insertList made).2
    have copied : (ListId.adopt (s.part n q) (.ownership ownership)).alone s =
        (.ok ⟨s.lists.size⟩, t) := by
      rw [ListId.adopt, alone_read_bind, own, if_neg]
      · have snapshot : (s.part n q).snapshot.alone s = (.ok items, s) :=
          ListId.alone_snapshot (h.open_spot hq)
        rw [alone_bind_ok snapshot, alone_read_bind, blocking]
        rfl
      · simpa [Value.isSame, Value.identity?] using same
    have hrecast : s.Recast t := h.recast_insertList _ _ _
    have hq' : t.HasPlace (.part n q) := (hrecast.hasPlace _).mpr hq
    have hloose : t.Loose ⟨s.lists.size⟩ :=
      h.loose_insertList _
    have list : t.list ⟨s.lists.size⟩ = made := by
      rw [list_insertList, if_pos rfl]
    rw [alone_bind_ok copied, alone_modify, putPart_eq (hrecast.tidy.bare _)]
    have hcast := hrecast.tidy.recast_setPart hq' hloose
      ((congrArg GuardedList.items list).trans (hrecast.held _ hq).symm)
    refine ⟨_, rfl, hrecast.trans hcast, fun y hy => ?_⟩
    rw [owner, spot_setPart hq' _ ((hrecast.hasPlace y).mpr hy), list_setPart]
    split
    · exact congrArg GuardedList.ownership list
    · exact h.owner_insertList hy _

/-- A node moves to another ownership, and nothing else does. -/
theorem alone_adopt (h : s.Tidy) {n : Node} (hn : s.HasNode n) (ownership : Ownership) :
    ∃ t, (n.adopt (.ownership ownership)).alone s = (.ok (), t) ∧ s.Recast t ∧
      (∀ q ∈ n.parts, t.owner (.part n q) = ownership) ∧
        ∀ y, s.HasPlace y → (∀ q, y ≠ .part n q) → t.owner y = s.owner y := by
  have each : ∀ qs ⊆ n.parts, ∀ s : Store, s.Tidy → s.HasNode n →
      ∃ t, (n.adoptParts (.ownership ownership) qs).alone s = (.ok (), t) ∧ s.Recast t ∧
        ∀ y, s.HasPlace y →
          t.owner y = if ∃ q ∈ qs, y = .part n q then ownership else s.owner y := by
    intro qs
    induction qs with
    | nil => exact fun _ s h _ => ⟨s, rfl, .refl h, fun y _ => by simp⟩
    | cons q rest ih =>
        intro hsub s h hn
        rw [List.cons_subset] at hsub
        obtain ⟨t, first, hfirst, owner⟩ := h.alone_adoptPart ⟨hn, hsub.1⟩ ownership
        obtain ⟨u, others, hothers, owners⟩ := ih hsub.2 t hfirst.tidy ((hfirst.nodes n).mpr hn)
        refine ⟨u, (alone_bind_ok first _).trans others, hfirst.trans hothers, fun y hy => ?_⟩
        rw [owners y ((hfirst.hasPlace y).mpr hy), owner y hy]
        by_cases hrest : ∃ r ∈ rest, y = .part n r <;> by_cases hq : y = .part n q <;>
          simp_all
  obtain ⟨t, moved, hrecast, owner⟩ := each n.parts (List.Subset.refl _) s h hn
  refine ⟨t, moved, hrecast, fun q hq => ?_, fun y hy hne => ?_⟩
  · rw [owner (.part n q) ⟨hn, hq⟩, if_pos ⟨q, hq, rfl⟩]
  · rw [owner y hy, if_neg]
    rintro ⟨q, -, heq⟩
    exact hne q heq

end Tidy

/-! ## More values -/

@[simp] theorem hasPlace_modifyList (s : Store) (l : ListId) (f : GuardedList → GuardedList)
    (x : Place) : (s.modifyList l f).HasPlace x ↔ s.HasPlace x := Iff.rfl

@[simp] theorem spot_modifyList (s : Store) (l : ListId) (f : GuardedList → GuardedList)
    (x : Place) : (s.modifyList l f).spot x = s.spot x := by
  cases x with
  | part n q => exact part_modifyList ..
  | statements d => rfl

@[simp] theorem owner_append (s : Store) (l : ListId) (items : List Value) (x : Place) :
    (s.modifyList l (·.append items)).owner x = s.owner x := by
  rw [owner, spot_modifyList, ownership_append]
  rfl

/-- What is put into the list of a place is held by this place and by no other one. -/
theorem held_append (known : ∀ x, s.HasPlace x → (s.spot x).index < s.lists.size)
    (apart : ∀ x y, s.HasPlace x → s.HasPlace y → s.spot x = s.spot y → x = y) {x y : Place}
    (hx : s.HasPlace x) (hy : s.HasPlace y) (items : List Value) :
    (s.modifyList (s.spot x) (·.append items)).held y =
      if y = x then s.held y ++ items else s.held y := by
  rw [held, spot_modifyList, items_append_eq]
  by_cases hyx : y = x
  · rw [if_pos ⟨by rw [hyx], known y hy⟩, if_pos hyx]
    rfl
  · rw [if_neg, if_neg hyx]
    · rfl
    · rintro ⟨heq, -⟩
      exact hyx (apart y x hy hx heq.symm)

namespace Tidy

theorem held_append (h : s.Tidy) {x y : Place} (hx : s.HasPlace x) (hy : s.HasPlace y)
    (items : List Value) :
    (s.modifyList (s.spot x) (·.append items)).held y =
      if y = x then s.held y ++ items else s.held y :=
  Store.held_append h.known h.apart hx hy items

theorem append (h : s.Tidy) {x : Place} (hx : s.HasPlace x) {items : List Value}
    (proper : ∀ n q, x = .part n q → ∀ v ∈ items, q.admits v) :
    (s.modifyList (s.spot x) (·.append items)).Tidy where
  unassigned := h.unassigned
  guarded l hl := by
    rw [size_modifyList] at hl
    rw [list_modifyList]
    split <;> exact h.guarded l hl
  known y hy := by
    rw [spot_modifyList, size_modifyList]
    exact h.known y hy
  apart y z hy hz heq := by
    rw [spot_modifyList, spot_modifyList] at heq
    exact h.apart y z hy hz heq
  proper n q hq v hv := by
    rw [h.held_append hx (y := .part n q) hq] at hv
    split at hv
    · next heq =>
        rcases List.mem_append.mp hv with hv | hv
        · exact h.proper n q hq v hv
        · exact proper n q heq.symm v hv
    · exact h.proper n q hq v hv
  phony := h.phony
  console := h.console

end Tidy

/-! ## New nodes and documents -/

/-- A node joins the others, with lists that are there already. -/
structure Joins (s : Store) (n : Node) (place : Part → ListId) (t : Store) : Prop where
  same : t = { s with rules := t.rules, builds := t.builds, pools := t.pools }
  new : ¬ s.HasNode n
  nodes : ∀ m, t.HasNode m ↔ s.HasNode m ∨ m = n
  part : ∀ m, s.HasNode m → ∀ q, t.part m q = s.part m q
  fields : ∀ m, s.HasNode m → t.fields m = s.fields m
  own : ∀ q ∈ n.parts, t.part n q = place q

theorem joins_insertRule (s : Store) (r : RuleRecord) :
    s.Joins (.rule ⟨s.rules.size⟩) (fun _ => r.bindings) (s.insertRule r).2 := by
  have new : (s.insertRule r).2.rule ⟨s.rules.size⟩ = r :=
    (Table.get_insert s.rules _ _).trans (if_pos rfl)
  have old (i : RuleId) (hi : i.index < s.rules.size) : (s.insertRule r).2.rule i = s.rule i :=
    (Table.get_insert s.rules _ _).trans (if_neg (Nat.ne_of_lt hi))
  refine ⟨rfl, Nat.lt_irrefl _, fun m => ?_, fun m hm q => ?_, fun m hm => ?_, fun q _ => ?_⟩
  · cases m with
    | rule i =>
        obtain ⟨i⟩ := i
        simp only [HasNode, insertRule, Table.size_insert, Node.rule.injEq, RuleId.mk.injEq]
        exact Nat.lt_succ_iff_lt_or_eq
    | _ => simp [HasNode, insertRule]
  · cases m with
    | rule i => exact congrArg RuleRecord.bindings (old i hm)
    | _ => cases q <;> rfl
  · cases m with
    | rule i => exact congrArg (fun r : RuleRecord => (r.name, false)) (old i hm)
    | _ => rfl
  · exact congrArg RuleRecord.bindings new

theorem joins_insertPool (s : Store) (p : PoolRecord) :
    s.Joins (.pool ⟨s.pools.size⟩) (fun _ => p.bindings) (s.insertPool p).2 := by
  have new : (s.insertPool p).2.pool ⟨s.pools.size⟩ = p :=
    (Table.get_insert s.pools _ _).trans (if_pos rfl)
  have old (i : PoolId) (hi : i.index < s.pools.size) : (s.insertPool p).2.pool i = s.pool i :=
    (Table.get_insert s.pools _ _).trans (if_neg (Nat.ne_of_lt hi))
  refine ⟨rfl, Nat.lt_irrefl _, fun m => ?_, fun m hm q => ?_, fun m hm => ?_, fun q _ => ?_⟩
  · cases m with
    | pool i =>
        obtain ⟨i⟩ := i
        simp only [HasNode, insertPool, Table.size_insert, Node.pool.injEq, PoolId.mk.injEq]
        exact Nat.lt_succ_iff_lt_or_eq
    | _ => simp [HasNode, insertPool]
  · cases m with
    | pool i => exact congrArg PoolRecord.bindings (old i hm)
    | _ => cases q <;> rfl
  · cases m with
    | pool i => exact congrArg (fun p : PoolRecord => (p.name, p.builtIn)) (old i hm)
    | _ => rfl
  · exact congrArg PoolRecord.bindings new

theorem joins_insertBuild (s : Store) (b : BuildRecord) :
    s.Joins (.build ⟨s.builds.size⟩) b.place (s.insertBuild b).2 := by
  have new : (s.insertBuild b).2.build ⟨s.builds.size⟩ = b :=
    (Table.get_insert s.builds _ _).trans (if_pos rfl)
  have old (i : BuildId) (hi : i.index < s.builds.size) :
      (s.insertBuild b).2.build i = s.build i :=
    (Table.get_insert s.builds _ _).trans (if_neg (Nat.ne_of_lt hi))
  refine ⟨rfl, Nat.lt_irrefl _, fun m => ?_, fun m hm q => ?_, fun m hm => ?_, fun q _ => ?_⟩
  · cases m with
    | build i =>
        obtain ⟨i⟩ := i
        simp only [HasNode, insertBuild, Table.size_insert, Node.build.injEq, BuildId.mk.injEq]
        exact Nat.lt_succ_iff_lt_or_eq
    | _ => simp [HasNode, insertBuild]
  · cases m with
    | build i => cases q <;> simp only [Store.part, old i hm]
    | _ => rfl
  · cases m with
    | build i => exact congrArg (fun b : BuildRecord => (b.ruleName, false)) (old i hm)
    | _ => rfl
  · cases q <;> simp only [Store.part, new, BuildRecord.place]

/-- Lists that a new node can have as its parts. -/
structure Room (s : Store) (n : Node) (place : Part → ListId) : Prop where
  loose : ∀ q ∈ n.parts, s.Loose (place q)
  distinct : ∀ q ∈ n.parts, ∀ r ∈ n.parts, place q = place r → q = r
  proper : ∀ q ∈ n.parts, ∀ v ∈ (s.list (place q)).items, q.admits v

namespace Joins

variable {n : Node} {place : Part → ListId}

theorem documents (h : s.Joins n place t) : t.documents = s.documents := by rw [h.same]

theorem lists (h : s.Joins n place t) : t.lists = s.lists := by rw [h.same]

theorem list (h : s.Joins n place t) (l : ListId) : t.list l = s.list l := by
  rw [Store.list, Store.list, h.lists]

theorem hasPlace (h : s.Joins n place t) (x : Place) :
    t.HasPlace x ↔ s.HasPlace x ∨ ∃ q ∈ n.parts, x = .part n q := by
  cases x with
  | statements d => simp [HasPlace, HasDocument, h.documents]
  | part m q =>
      rw [HasPlace, HasPlace, h.nodes]
      constructor
      · rintro ⟨hm | rfl, hq⟩
        · exact .inl ⟨hm, hq⟩
        · exact .inr ⟨q, hq, rfl⟩
      · rintro (⟨hm, hq⟩ | ⟨r, hr, heq⟩)
        · exact ⟨.inl hm, hq⟩
        · cases heq
          exact ⟨.inr rfl, hr⟩

theorem spot (h : s.Joins n place t) {x : Place} (hx : s.HasPlace x) : t.spot x = s.spot x := by
  cases x with
  | part m q => exact h.part m hx.1 q
  | statements d => rw [Store.spot, Store.spot, document, document, h.documents]

theorem held (h : s.Joins n place t) {x : Place} (hx : s.HasPlace x) : t.held x = s.held x := by
  rw [Store.held, h.spot hx, h.list]
  rfl

theorem owner (h : s.Joins n place t) {x : Place} (hx : s.HasPlace x) :
    t.owner x = s.owner x := by
  rw [Store.owner, h.spot hx, h.list]
  rfl

theorem held_own (h : s.Joins n place t) {q : Part} (hq : q ∈ n.parts) :
    t.held (.part n q) = (s.list (place q)).items := by
  rw [Store.held, Store.spot, h.own q hq, h.list]

/-- A node joins a tidy store with lists that are its own. -/
theorem tidy (h : s.Joins n place t) (hs : s.Tidy) (room : s.Room n place) : t.Tidy where
  unassigned := by
    rw [h.same]
    exact hs.unassigned
  guarded l hl := by
    rw [h.lists] at hl
    rw [h.list]
    exact hs.guarded l hl
  known x hx := by
    rw [h.lists]
    rcases (h.hasPlace x).mp hx with hx | ⟨q, hq, rfl⟩
    · rw [h.spot hx]
      exact hs.known x hx
    · rw [Store.spot, h.own q hq]
      exact (room.loose q hq).known
  apart x y hx hy heq := by
    rcases (h.hasPlace x).mp hx with hx | ⟨q, hq, rfl⟩ <;>
      rcases (h.hasPlace y).mp hy with hy | ⟨r, hr, rfl⟩
    · rw [h.spot hx, h.spot hy] at heq
      exact hs.apart x y hx hy heq
    · rw [h.spot hx, Store.spot, h.own r hr] at heq
      exact absurd heq ((room.loose r hr).free x hx)
    · rw [h.spot hy, Store.spot, h.own q hq] at heq
      exact absurd heq.symm ((room.loose q hq).free y hy)
    · rw [Store.spot, Store.spot, h.own q hq, h.own r hr] at heq
      rw [room.distinct q hq r hr heq]
  proper m q hq v hv := by
    rcases (h.hasPlace _).mp hq with hq | ⟨r, hr, heq⟩
    · rw [h.held hq] at hv
      exact hs.proper m q hq v hv
    · cases heq
      rw [h.held_own hr] at hv
      exact room.proper q hr v hv
  phony d hd := by
    rw [HasDocument, h.documents] at hd
    rw [document, h.documents]
    exact (h.nodes _).mpr (.inl (hs.phony d hd))
  console d hd := by
    rw [HasDocument, h.documents] at hd
    rw [document, h.documents]
    exact (h.nodes _).mpr (.inl (hs.console d hd))

end Joins

theorem hasPlace_insertDocument (s : Store) (r : DocumentRecord) (x : Place) :
    (s.insertDocument r).2.HasPlace x ↔
      s.HasPlace x ∨ x = .statements ⟨s.documents.size⟩ := by
  cases x with
  | part n q => simp [HasPlace, insertDocument, HasNode]
  | statements d =>
      obtain ⟨i⟩ := d
      simp [HasPlace, HasDocument, insertDocument, Nat.le_iff_lt_or_eq, Nat.lt_succ_iff]

theorem document_insertDocument (s : Store) (r : DocumentRecord) (d : DocumentId) :
    (s.insertDocument r).2.document d =
      if d.index = s.documents.size then r else s.document d :=
  Table.get_insert s.documents r d.index

theorem spot_insertDocument (r : DocumentRecord) {x : Place} (hx : s.HasPlace x) :
    (s.insertDocument r).2.spot x = s.spot x := by
  cases x with
  | part n q => cases n <;> cases q <;> rfl
  | statements d => rw [spot, document_insertDocument, if_neg (Nat.ne_of_lt hx)]; rfl

theorem spot_insertDocument_new (s : Store) (r : DocumentRecord) :
    (s.insertDocument r).2.spot (.statements ⟨s.documents.size⟩) = r.arena.statements := by
  rw [spot, document_insertDocument, if_pos rfl]

theorem held_insertDocument (r : DocumentRecord) {x : Place} (hx : s.HasPlace x) :
    (s.insertDocument r).2.held x = s.held x := by
  rw [held, spot_insertDocument r hx]
  rfl

/-- A document joins a tidy store with a list that is its own. -/
theorem Tidy.insertDocument (h : s.Tidy) {r : DocumentRecord} (loose : s.Loose r.arena.statements)
    (phony : s.HasNode (.rule r.phony)) (console : s.HasNode (.pool r.console)) :
    (s.insertDocument r).2.Tidy where
  unassigned := h.unassigned
  guarded := h.guarded
  known x hx := by
    rcases (hasPlace_insertDocument s r x).mp hx with hx | rfl
    · rw [spot_insertDocument r hx]
      exact h.known x hx
    · rw [spot_insertDocument_new]
      exact loose.known
  apart x y hx hy heq := by
    rcases (hasPlace_insertDocument s r x).mp hx with hx | rfl <;>
      rcases (hasPlace_insertDocument s r y).mp hy with hy | rfl
    · rw [spot_insertDocument r hx, spot_insertDocument r hy] at heq
      exact h.apart x y hx hy heq
    · rw [spot_insertDocument r hx, spot_insertDocument_new] at heq
      exact absurd heq (loose.free x hx)
    · rw [spot_insertDocument r hy, spot_insertDocument_new] at heq
      exact absurd heq.symm (loose.free y hy)
    · rfl
  proper n q hq v hv := by
    have old : s.HasPlace (.part n q) := hq
    rw [held_insertDocument r old] at hv
    exact h.proper n q old v hv
  phony d hd := by
    rcases (hasPlace_insertDocument s r (.statements d)).mp hd with hd | heq
    · rw [document_insertDocument, if_neg (Nat.ne_of_lt hd)]
      exact h.phony d hd
    · cases heq
      rw [document_insertDocument, if_pos rfl]
      exact phony
  console d hd := by
    rcases (hasPlace_insertDocument s r (.statements d)).mp hd with hd | heq
    · rw [document_insertDocument, if_neg (Nat.ne_of_lt hd)]
      exact h.console d hd
    · cases heq
      rw [document_insertDocument, if_pos rfl]
      exact console

end Store

end NinjaFile
