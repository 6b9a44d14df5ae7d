import NinjaFile.Proofs.Document.Content
import NinjaFile.Proofs.Store.Alike

/-!
# Adopting lists one after the other

The lists of a statement take on an ownership one by one, and each of them may be refused to
whoever wants to copy it.  What has happened until then is this: some of the lists, from the
first one on, have given way to copies unless they had that ownership already.
-/

namespace NinjaFile

open Program Store

/-! ## Places -/

/-- A list of a node. -/
abbrev Seat := Node × Part

theorem Node.nodup_parts (n : Node) : n.parts.Nodup := by
  cases n <;> simp [parts, Slot.all]

namespace Value

/-- The lists of a value, in the order in which they change ownership. -/
def seats (v : Value) : List Seat :=
  match v.node? with
  | some n => n.parts.map fun q => (n, q)
  | none => []

end Value

namespace Store

/-- What a node has at a seat. -/
def seated (s : Store) (x : Seat) : Value := s.partValue x.1 x.2

theorem seated_eq {s : Store} (unassigned : s.assigned = []) (x : Seat) :
    s.seated x = .object (.list (s.part x.1 x.2)) := by
  rw [seated, partValue, assigned?, unassigned]
  rfl

/-- The seat of a list of a statement that there is. -/
def HasSeat (s : Store) (x : Seat) : Prop := s.HasNode x.1 ∧ x.2 ∈ x.1.parts

theorem identity_injective {n m : Node} (h : n.identity = m.identity) : n = m := by
  cases n <;> cases m <;> cases h <;> rfl

theorem name_injective {n : Node} {q r : Part} (hq : q ∈ n.parts) (hr : r ∈ n.parts)
    (h : q.name = r.name) : q = r := by
  cases q with
  | bindings =>
      cases r with
      | bindings => rfl
      | paths slot => cases slot <;> exact absurd h (by decide)
  | paths slot =>
      cases r with
      | bindings => cases slot <;> exact absurd h (by decide)
      | paths other => cases slot <;> cases other <;> first | rfl | exact absurd h (by decide)

theorem seated_putPart {s : Store} {x y : Seat} (hx : s.HasSeat x) (hy : y.2 ∈ y.1.parts)
    (l : ListId) : (s.putPart x.1 x.2 (.object (.list l))).seated y =
      if y = x then .object (.list l) else s.seated y := by
  obtain ⟨n, q⟩ := x
  obtain ⟨m, r⟩ := y
  obtain ⟨hn, hq⟩ := hx
  have assigned : (s.putPart n q (.object (.list l))).assigned? m.identity r.name =
      if (m, r) = (n, q) then none else s.assigned? m.identity r.name := by
    rw [assigned?_putPart]
    by_cases heq : (m, r) = (n, q)
    · cases heq
      rw [if_pos rfl, if_pos rfl]
    · rw [if_neg heq, if_neg]
      intro key
      obtain rfl := identity_injective (Prod.mk.inj key).1
      exact heq (congrArg (Prod.mk m) (name_injective hy hq (Prod.mk.inj key).2))
  have part : (s.putPart n q (.object (.list l))).part m r = (s.setPart n q l).part m r := by
    cases m <;> cases r <;> rfl
  simp only [seated, partValue, assigned, part]
  by_cases heq : (m, r) = (n, q)
  · cases heq
    simp [Store.part_setPart hn hq hq]
  · rw [if_neg heq, if_neg heq]
    have : (s.setPart n q l).part m r = s.part m r := by
      rcases part_setPart_or hn hq hy l with ⟨rfl, rfl, -⟩ | same
      · exact absurd rfl heq
      · exact same
    rw [this]

@[simp] theorem lists_assignAll (s : Store) (i : Identity) (attributes : List (String × Value)) :
    (s.assignAll i attributes).lists = s.lists := by
  rw [assignAll_eq]

@[simp] theorem list_assignAll (s : Store) (i : Identity) (attributes : List (String × Value))
    (l : ListId) : (s.assignAll i attributes).list l = s.list l := by
  rw [list, list, lists_assignAll]

/-! ## What has been adopted so far -/

/-- What has become of the list at a seat that has taken on an ownership: it is the same
list if it had that ownership, and else a new one with the same items. -/
def Took (s₀ : Store) (ownership : Value) (x : Seat) (s : Store) : Prop :=
  ∃ l, s₀.seated x = .object (.list l) ∧
    if ownership.isSame (s₀.listOwnership l) then s.seated x = .object (.list l)
    else ∃ o l', ownership = .ownership o ∧ s.seated x = .object (.list l') ∧
      s₀.lists.size ≤ l'.index ∧ l'.index < s.lists.size ∧ (s.list l').ownership = o ∧
        (s.list l').items = (s₀.list l).items

theorem Took.congr {s₀ s s' : Store} {ownership : Value} {x : Seat} (h : s₀.Took ownership x s)
    (seated : s'.seated x = s.seated x) (size : s.lists.size ≤ s'.lists.size)
    (owner : ∀ l, l.index < s.lists.size → (s'.list l).ownership = (s.list l).ownership)
    (items : ∀ l, l.index < s.lists.size → (s'.list l).items = (s.list l).items) :
    s₀.Took ownership x s' := by
  obtain ⟨l, hl, took⟩ := h
  refine ⟨l, hl, ?_⟩
  rw [seated]
  split
  · next same => rwa [if_pos same] at took
  · next other =>
      rw [if_neg other] at took
      obtain ⟨o, l', ho, hl', new, known, howner, hitems⟩ := took
      exact ⟨o, l', ho, hl', new, Nat.lt_of_lt_of_le known size, (owner l' known).trans howner,
        (items l' known).trans hitems⟩

/-- Some seats have taken on an ownership, and nothing else has happened to what there was,
apart from guards, log lines and sources. -/
structure Adopted (s₀ : Store) (ownership : Value) (done : List Seat) (s : Store) : Prop where
  size : s₀.lists.size ≤ s.lists.size
  items : ∀ l, l.index < s₀.lists.size → (s.list l).items = (s₀.list l).items
  owner : ∀ l, l.index < s₀.lists.size → (s.list l).ownership = (s₀.list l).ownership
  known : ∀ x ∈ done, x.2 ∈ x.1.parts
  taken : ∀ x ∈ done, s₀.Took ownership x s
  rest : ∀ x, x.2 ∈ x.1.parts → x ∉ done → s.seated x = s₀.seated x
  nodes : ∀ n, s.HasNode n ↔ s₀.HasNode n
  fields : ∀ n, s.fields n = s₀.fields n
  documents : s.documents = s₀.documents
  assigned : ∀ i name, name ≠ "blocking" → (∀ q : Part, name ≠ q.name) →
    s.assigned? i name = s₀.assigned? i name

namespace Adopted

variable {s₀ s s' : Store} {ownership : Value} {done : List Seat}

theorem refl (s : Store) (ownership : Value) : s.Adopted ownership [] s where
  size := Nat.le_refl _
  items _ _ := rfl
  owner _ _ := rfl
  known _ hx := absurd hx List.not_mem_nil
  taken _ hx := absurd hx List.not_mem_nil
  rest _ _ _ := rfl
  nodes _ := Iff.rfl
  fields _ := rfl
  documents := rfl
  assigned _ _ _ _ := rfl

theorem alike (h : s₀.Adopted ownership done s) (like : s.Alike s') :
    s₀.Adopted ownership done s' where
  size := Nat.le_trans h.size (Nat.le_of_eq like.size.symm)
  items l hl := (like.items l).trans (h.items l hl)
  owner l hl := (like.ownership l).trans (h.owner l hl)
  known := h.known
  taken x hx := (h.taken x hx).congr (like.partValue_eq x.1 x.2) (Nat.le_of_eq like.size.symm)
    (fun l _ => like.ownership l) fun l _ => like.items l
  rest x hx hdone := (like.partValue_eq x.1 x.2).trans (h.rest x hx hdone)
  nodes n := (like.hasNode n).trans (h.nodes n)
  fields n := by
    rw [← h.fields]
    cases n <;> simp only [Store.fields, Store.rule, Store.pool, Store.build, like.rules, like.pools,
      like.builds]
  documents := like.documents.trans h.documents
  assigned i name blocking part := (like.assigned?_eq i name).trans (h.assigned i name blocking part)

theorem listOwnership (h : s₀.Adopted ownership done s) {l : ListId}
    (hl : l.index < s₀.lists.size) : s.listOwnership l = s₀.listOwnership l := by
  rw [Store.listOwnership, Store.listOwnership, h.owner l hl, h.assigned]
  · decide
  · intro q
    cases q with
    | bindings => decide
    | paths slot => cases slot <;> decide

theorem snoc (h : s₀.Adopted ownership done s) {x : Seat} (hx : s₀.HasSeat x) (new : x ∉ done)
    {l : ListId} (took : s₀.Took ownership x (s.putPart x.1 x.2 (.object (.list l)))) :
    s₀.Adopted ownership (done ++ [x]) (s.putPart x.1 x.2 (.object (.list l))) := by
  have hx' : s.HasSeat x := ⟨(h.nodes _).mpr hx.1, hx.2⟩
  have lists : (s.putPart x.1 x.2 (.object (.list l))).lists = s.lists := lists_setPart ..
  have list (j : ListId) : (s.putPart x.1 x.2 (.object (.list l))).list j = s.list j := by
    rw [Store.list, Store.list, lists]
  have seated {y : Seat} (hy : y.2 ∈ y.1.parts) (hne : y ≠ x) :
      (s.putPart x.1 x.2 (.object (.list l))).seated y = s.seated y := by
    rw [seated_putPart hx' hy, if_neg hne]
  constructor
  case size =>
    rw [lists]
    exact h.size
  case items =>
    intro j hj
    rw [list]
    exact h.items j hj
  case owner =>
    intro j hj
    rw [list]
    exact h.owner j hj
  case known =>
    intro y hy
    rcases List.mem_append.mp hy with hold | hnew
    · exact h.known y hold
    · exact List.mem_singleton.mp hnew ▸ hx.2
  case taken =>
    intro y hy
    rcases List.mem_append.mp hy with hold | hnew
    · refine (h.taken y hold).congr (seated (h.known y hold) ?_) (Nat.le_of_eq ?_)
        (fun j _ => congrArg GuardedList.ownership (list j)) fun j _ =>
          congrArg GuardedList.items (list j)
      · rintro rfl
        exact new hold
      · rw [lists]
    · exact List.mem_singleton.mp hnew ▸ took
  case rest =>
    intro y hy hdone
    have hdone : y ∉ done ∧ y ≠ x := by simpa [not_or] using hdone
    rw [seated hy hdone.2]
    exact h.rest y hy hdone.1
  case nodes =>
    intro n
    have unassigned : (s.putPart x.1 x.2 (.object (.list l))).HasNode n ↔
        (s.setPart x.1 x.2 l).HasNode n := by cases n <;> exact Iff.rfl
    exact unassigned.trans ((hasNode_setPart ..).trans (h.nodes n))
  case fields =>
    intro n
    have unassigned : (s.putPart x.1 x.2 (.object (.list l))).fields n =
        (s.setPart x.1 x.2 l).fields n := by cases n <;> rfl
    exact unassigned.trans ((fields_setPart ..).trans (h.fields n))
  case documents =>
    exact (documents_setPart ..).trans h.documents
  case assigned =>
    intro i name blocking part
    rw [assigned?_putPart, if_neg fun key => part x.2 (Prod.mk.inj key).2]
    exact h.assigned i name blocking part

theorem makeList (h : s₀.Adopted ownership done s) (l : GuardedList)
    {attributes : List (String × Value)} (blocking : ∀ a ∈ attributes, a.1 = "blocking") :
    s₀.Adopted ownership done (((s.insertList l).2.assignAll (.list ⟨s.lists.size⟩)
      attributes).assignAll (.guard (.list ⟨s.lists.size⟩)) attributes) := by
  have assigned {t : Store} {i : Identity} (j : Identity) {name : String}
      (other : j ≠ i ∨ name ≠ "blocking") :
      (t.assignAll i attributes).assigned? j name = t.assigned? j name := by
    rcases assigned?_assignAll i j attributes name (s := t) with same | ⟨v, hv, -⟩
    · exact same
    · rcases other with other | other
      · exact assigned?_assignAll_of_ne other attributes name
      · exact absurd (blocking _ hv) other
  have node (n : Node) (name : String) : ((((s.insertList l).2.assignAll (.list ⟨s.lists.size⟩)
      attributes).assignAll (.guard (.list ⟨s.lists.size⟩)) attributes).assigned? n.identity name =
        s.assigned? n.identity name) := by
    rw [assigned _ (.inl (by cases n <;> exact Identity.noConfusion)),
      assigned _ (.inl (by cases n <;> exact Identity.noConfusion))]
    rfl
  have old {j : ListId} (hj : j.index < s.lists.size) : (s.insertList l).2.list j = s.list j := by
    rw [list_insertList, if_neg (Nat.ne_of_lt hj)]
  have grown : s.lists.size ≤ (s.insertList l).2.lists.size := by simp [insertList]
  have seated (x : Seat) : ((((s.insertList l).2.assignAll (.list ⟨s.lists.size⟩)
      attributes).assignAll (.guard (.list ⟨s.lists.size⟩)) attributes).seated x = s.seated x) := by
    rw [Store.seated, partValue, node, assignAll_eq, assignAll_eq (s.insertList l).2]
    rfl
  rw [assignAll_eq, assignAll_eq (s.insertList l).2] at seated ⊢
  constructor
  case size =>
    exact Nat.le_trans h.size grown
  case items =>
    intro j hj
    exact (congrArg GuardedList.items (old (Nat.lt_of_lt_of_le hj h.size))).trans (h.items j hj)
  case owner =>
    intro j hj
    exact (congrArg GuardedList.ownership (old (Nat.lt_of_lt_of_le hj h.size))).trans (h.owner j hj)
  case known =>
    exact h.known
  case taken =>
    intro x hx
    exact (h.taken x hx).congr (seated x) grown
      (fun j hj => congrArg GuardedList.ownership (old hj)) fun j hj =>
        congrArg GuardedList.items (old hj)
  case rest =>
    intro x hx hdone
    exact (seated x).trans (h.rest x hx hdone)
  case nodes =>
    intro n
    refine Iff.trans ?_ (h.nodes n)
    cases n <;> exact Iff.rfl
  case fields =>
    intro n
    refine Eq.trans ?_ (h.fields n)
    cases n <;> rfl
  case documents =>
    exact h.documents
  case assigned =>
    intro i name hname part
    refine Eq.trans ?_ (h.assigned i name hname part)
    rw [← assignAll_eq (s.insertList l).2, ← assignAll_eq, assigned _ (.inr hname), assigned _ (.inr hname)]
    rfl

end Adopted

end Store

section Adopting

variable {s₀ s : Store} {g : Progress Store} {ownership : Value} {done : List Seat}

/-- A list takes on an ownership, or nothing has happened; the one it gives is the same list
or a new one, which nothing has been done to yet. -/
theorem wp_listAdopt (h : s₀.Adopted ownership done s) {l : ListId}
    (known : l.index < s₀.lists.size) :
    (l.adopt ownership).wp calm (fun res _ s' => s₀.Adopted ownership done s' ∧
      ∀ l', res = .ok l' →
        if ownership.isSame (s₀.listOwnership l) then l' = l
        else ∃ o, ownership = .ownership o ∧ s₀.lists.size ≤ l'.index ∧
          l'.index < s'.lists.size ∧ (s'.list l').ownership = o ∧
            (s'.list l').items = (s₀.list l).items) g s := by
  rw [ListId.adopt, wp_read_bind]
  intro s₁ between₁ _
  have h₁ := h.alike between₁
  refine ⟨trivial, trivial, ?_⟩
  rw [h₁.listOwnership known]
  split
  · exact ⟨h₁, fun l' heq => (Except.ok.inj heq).symm⟩
  · rw [wp_bind, ListId.snapshot, wp_guarded]
    intro s₂ between₂ _
    have h₂ := h₁.alike between₂
    refine ⟨trivial, ?_, fun _ fault => ⟨h₂, fun _ heq => by cases heq⟩⟩
    rw [wp_read]
    intro s₃ between₃ _
    have h₃ := h₂.alike between₃
    refine ⟨trivial, trivial, ?_⟩
    rw [h₃.items l known]
    change Program.wp _ _ (Action.read _ >>= _) _ _
    rw [wp_read_bind]
    intro s₄ between₄ _
    have h₄ := h₃.alike between₄
    refine ⟨trivial, trivial, ?_⟩
    rw [wp_bind, wp_ofExcept]
    cases howner : ownership.ownershipOf with
    | error fault => exact ⟨h₄, fun _ heq => by cases heq⟩
    | ok o =>
        have ho : ownership = .ownership o := by
          cases ownership <;> cases howner
          rfl
        intro s₅ between₅ _
        have h₅ := h₄.alike between₅
        refine ⟨trivial, trivial, h₅.makeList _ ?_, fun l' heq => ?_⟩
        · intro a ha
          split at ha
          · cases ha
          · exact congrArg Prod.fst (List.mem_singleton.mp ha)
        · obtain rfl := Except.ok.inj heq
          refine ⟨o, ho, h₅.size, ?_⟩
          simp only [lists_assignAll, list_assignAll]
          refine ⟨by simp [insertList], ?_⟩
          rw [list_insertList, if_pos (show (s₅.insertList _).1.index = s₅.lists.size from rfl)]
          exact ⟨rfl, rfl⟩

theorem wp_adoptPart (h : s₀.Adopted ownership done s) {x : Seat} (hx : s₀.HasSeat x)
    (known : ∀ l, s₀.seated x = .object (.list l) → l.index < s₀.lists.size) (new : x ∉ done) :
    (x.1.adoptPart ownership x.2).wp calm (fun res _ s' =>
      (res = .ok () ∧ s₀.Adopted ownership (done ++ [x]) s') ∨
        ∃ fault, res = .error fault ∧ s₀.Adopted ownership done s') g s := by
  rw [adoptPart_eq, wp_read_bind]
  intro s₁ between₁ _
  have h₁ := h.alike between₁
  refine ⟨trivial, trivial, ?_⟩
  rw [show s₁.partValue x.1 x.2 = s₀.seated x from h₁.rest x hx.2 new]
  split
  · next l hl =>
      rw [wp_bind]
      refine wp_mono ?_ (wp_listAdopt h₁ (known l hl))
      rintro (fault | l') g s₂ ⟨h₂, took⟩
      · exact .inr ⟨fault, rfl, h₂⟩
      · intro s₃ between₃ _
        have h₃ := h₂.alike between₃
        refine ⟨trivial, trivial, .inl ⟨rfl, h₃.snoc hx new ⟨l, hl, ?_⟩⟩⟩
        have seat : (s₃.putPart x.1 x.2 (.object (.list l'))).seated x = .object (.list l') := by
          rw [seated_putPart ⟨(h₃.nodes _).mpr hx.1, hx.2⟩ hx.2, if_pos rfl]
        have lists : (s₃.putPart x.1 x.2 (.object (.list l'))).lists = s₃.lists :=
          lists_setPart ..
        have took := took l' rfl
        split
        · next same =>
            rw [if_pos same] at took
            rw [seat, took]
        · next other =>
            rw [if_neg other] at took
            obtain ⟨o, ho, old, fresh, owner, items⟩ := took
            refine ⟨o, l', ho, seat, old, ?_, ?_, ?_⟩
            · rw [lists, between₃.size]
              exact fresh
            · rw [Store.list, lists]
              exact (between₃.ownership l').trans owner
            · rw [Store.list, lists]
              exact (between₃.items l').trans items
  · exact .inr ⟨_, rfl, h₁⟩

/-- The seats of a node take on the ownership one after the other, up to the first one that
cannot. -/
theorem wp_adoptParts {n : Node} (hn : s₀.HasNode n)
    (known : ∀ q ∈ n.parts, ∀ l, s₀.seated (n, q) = .object (.list l) →
      l.index < s₀.lists.size) {before after : List Part} (split : n.parts = before ++ after)
    (h : s₀.Adopted ownership (before.map (Prod.mk n)) s) :
    (n.adoptParts ownership after).wp calm (fun res _ s' =>
      (res = .ok () ∧ s₀.Adopted ownership (n.parts.map (Prod.mk n)) s') ∨
        ∃ fault before' q after', res = .error fault ∧ n.parts = before' ++ q :: after' ∧
          s₀.Adopted ownership (before'.map (Prod.mk n)) s') g s := by
  induction after generalizing before g s with
  | nil =>
      rw [List.append_nil] at split
      exact .inl ⟨rfl, split ▸ h⟩
  | cons q rest ih =>
      have hq : q ∈ n.parts := by simp [split]
      have new : (n, q) ∉ before.map (Prod.mk n) := by
        have nodup := n.nodup_parts
        rw [split, List.nodup_append] at nodup
        simp only [List.mem_map, Prod.mk.injEq, true_and, exists_eq_right]
        exact fun hmem => nodup.2.2 q hmem q List.mem_cons_self rfl
      rw [Node.adoptParts, wp_bind]
      refine wp_mono ?_ (wp_adoptPart (x := (n, q)) h ⟨hn, hq⟩ (known q hq) new)
      rintro res g s' (⟨rfl, h'⟩ | ⟨fault, rfl, h'⟩)
      · have again : n.parts = (before ++ [q]) ++ rest := by simp [split]
        exact ih again (by simpa using h')
      · exact .inr ⟨fault, before, q, rest, rfl, split, h'⟩

end Adopting

end NinjaFile
