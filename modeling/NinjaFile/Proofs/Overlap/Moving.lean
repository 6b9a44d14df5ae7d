import NinjaFile.Proofs.Frame.Moving
import NinjaFile.Proofs.Overlap.Making

/-!
# Moving statements while others render

A list of one owner is never waited for, so while a statement moves to shared lists nobody
comes in between: each of its lists is copied as it is, and gives way to the copy at once.
-/

namespace NinjaFile

theorem Value.eq_of_isSame_ownership {v : Value} {o : Ownership}
    (h : v.isSame (.ownership o) = true) : v = .ownership o := by
  cases v with
  | ownership o' =>
      have same : o' = o := by simpa [isSame, identity?] using h
      rw [same]
  | object x => cases x <;> simp [isSame, identity?, Object.identity] at h
  | _ => simp [isSame, identity?] at h

namespace Overlap

open Store Program
open Housing (Saw saw_append)

variable {α : Type} {c : Setting} {n : Node} {q : Part} {l : ListId} {v ownership : Value}
  {trail : List (Store × Store)} {s s' : Store}

/-! ## Moving lists -/

theorem lasting_hasNode (n : Node) : Lasting c fun _ s => s.HasNode n :=
  ⟨fun _ _ _ h gentle => gentle.nodes n h, fun _ _ _ h => h⟩

/-- Some parts of a statement have shared lists, if it is kept. -/
def Moved (c : Setting) (n : Node) (done : List Part) : Housing.Assertion := fun _ s =>
  s.HasNode n ∧ (c.kept n → ∀ r ∈ n.parts, r ∈ done → s.Shares (s.part n r))

/-- A part is about to move: its list is that which has been looked up. -/
structure Moving (c : Setting) (n : Node) (done : List Part) (q : Part) (l : ListId)
    (trail : List (Store × Store)) (s : Store) : Prop where
  has : s.HasNode n
  saw : Saw trail l (.part n q)
  done : c.kept n → ∀ r ∈ n.parts, r ∈ done → s.Shares (s.part n r)
  part : c.kept n → s.part n q = l ∧ l.index < s.lists.size

/-- A part can get a list: it has it already, or a list that is not shared gives way to a copy. -/
structure Ready (c : Setting) (n : Node) (done : List Part) (q : Part) (l : ListId)
    (s : Store) : Prop where
  has : s.HasNode n
  done : c.kept n → ∀ r ∈ n.parts, r ∈ done → s.Shares (s.part n r)
  shares : c.kept n → s.Shares l
  part : c.kept n → s.part n q = l ∨ ¬ s.Shares (s.part n q)
  same : c.kept n → s.held (.part n q) <+: (s.list l).items

section

variable {done : List Part}

theorem Moving.alike (h : Moving c n done q l trail s) (like : s.Alike s') :
    Moving c n done q l trail s' where
  has := (like.hasNode n).mpr h.has
  saw := h.saw
  done hk r hr hd := by
    rw [like.part, like.shares]
    exact h.done hk r hr hd
  part hk := by
    rw [like.part, like.size]
    exact h.part hk

theorem Moving.note (h : Moving c n done q l trail s) (step : Store × Store) :
    Moving c n done q l (trail ++ [step]) s :=
  { h with saw := h.saw.mono [step] }

/-- The list is to be copied: that of a kept statement has one owner. -/
structure Copying (c : Setting) (n : Node) (done : List Part) (q : Part) (l : ListId)
    (trail : List (Store × Store)) (s : Store) : Prop extends Moving c n done q l trail s where
  single : c.kept n → (s.list l).ownership = .single

namespace Copying

theorem alike (h : Copying c n done q l trail s) (like : s.Alike s') : Copying c n done q l trail s' where
  toMoving := h.toMoving.alike like
  single hk := (like.ownership l).trans (h.single hk)

theorem note (h : Copying c n done q l trail s) (step : Store × Store) :
    Copying c n done q l (trail ++ [step]) s :=
  { h with toMoving := h.toMoving.note step }

/-- Others can come in between only where the statement is not kept, and then it does not
matter. -/
theorem entered (h : Copying c n done q l trail s) (neat : Neat c.kept s)
    (others : s.Alike s' ∨ (s.guard (.list l)).isLocking ∧ Gentle c.kept s s') :
    Copying c n done q l trail s' := by
  obtain like | ⟨locking, gentle⟩ := others
  · exact h.alike like
  · have other : ¬ c.kept n := fun hk => by
      have cooperative := neat.fits l (h.single hk)
      exact absurd (locking.symm.trans cooperative) nofun
    exact ⟨⟨gentle.nodes n h.has, h.saw, fun hk => absurd hk other, fun hk => absurd hk other⟩,
      fun hk => absurd hk other⟩

theorem copy (h : Copying c n done q l trail s) {o : Ownership} (shared : c.kept n → o = .shared)
    (blocking : Bool) {items : List Value} (plain : ∀ v ∈ items, v.node? = none)
    (all : c.kept n → items = (s.list l).items) :
    let s' := (s.insertList (.make o blocking items)).2
    Fair c.kept s s' ∧ Ready c n done q ⟨s.lists.size⟩ s' := by
  intro s'
  have fair : Fair c.kept s s' := .insertList s o blocking plain
  have new : s'.list ⟨s.lists.size⟩ = .make o blocking items := by
    rw [list_insertList, if_pos rfl]
  have old (hk : c.kept n) : s'.list l = s.list l := by
    rw [list_insertList, if_neg (Nat.ne_of_lt (h.part hk).2)]
  have part (r : Part) : s'.part n r = s.part n r := part_insertList ..
  refine ⟨fair, fair.gentle.nodes n h.has, fun hk r hr hd => ?_, fun hk => ⟨?_, ?_⟩, fun hk => .inr ?_,
    fun hk => ?_⟩
  · rw [part]
    exact fair.gentle.shares (h.done hk r hr hd)
  · simp [s', Store.insertList]
  · rw [new]
    exact shared hk
  · rw [part, (h.part hk).1]
    intro shares
    have := shares.shared
    rw [old hk, h.single hk] at this
    cases this
  · rw [Store.held, spot, part, (h.part hk).1, old hk, new, all hk]
    exact List.prefix_rfl

end Copying

theorem plain_of_admits (h : q.admits v) : v.node? = none := by
  cases v with
  | object x => cases q <;> cases x <;> first | rfl | cases h
  | _ => rfl

theorem does_copy {o : Ownership} (shared : c.kept n → o = .shared) :
    Does c (Copying c n done q l) (do
      let items ← l.snapshot
      let blocking ← Action.read fun s => s.listBlocking l
      ListId.makeWith o blocking items) fun l' _ s => Ready c n done q l' s := by
  refine does_bind (R := fun items trail s => (Copying c n done q l trail s ∧
    (c.kept n → items = (s.list l).items)) ∧ ∀ v ∈ items, q.admits v) ?_ fun items => does_pull ?_
  · refine does_guarded (fun _ _ _ h neat => h.entered neat) (does_read (Q := fun items trail s =>
      (Copying c n done q l trail s ∧ (c.kept n → items = (s.list l).items)) ∧
        ∀ v ∈ items, q.admits v) fun trail s h good _ => ?_) ?_
    · exact ⟨⟨h.note _, fun _ => rfl⟩, good.suits (.inl h.saw)⟩
    · rintro items trail s s' ⟨⟨h, all⟩, admits⟩ like
      exact ⟨⟨h.alike like, fun hk => (all hk).trans (like.items l).symm⟩, admits⟩
  intro admits
  refine does_bind (R := fun blocking trail s => (Copying c n done q l trail s ∧
    (c.kept n → items = (s.list l).items)) ∧ ∃ b, blocking = .bool b) ?_ fun blocking => does_pull ?_
  · refine does_read fun trail s h good _ => ⟨⟨h.1.note _, h.2⟩, (s.list l).blocking, ?_⟩
    rw [listBlocking, assigned?, good.housed.unassigned]
    rfl
  rintro ⟨b, rfl⟩
  refine does_update fun trail s h _ _ _ => ?_
  exact h.1.copy shared b (fun v hv => plain_of_admits (admits v hv)) h.2

theorem does_listAdopt (may : ownership = .ownership .single → ¬ c.kept n) :
    Does c (Moving c n done q l) (l.adopt ownership) fun l' _ s => Ready c n done q l' s := by
  refine does_bind (R := fun own trail s => ∃ o, (Moving c n done q l trail s ∧
    (s.list l).ownership = o) ∧ own = .ownership o) ?_ fun own => does_exists fun o => does_pull ?_
  · refine does_read fun trail s moving good _ => ⟨_, ⟨moving.note _, rfl⟩, ?_⟩
    rw [listOwnership, assigned?, good.housed.unassigned]
    rfl
  rintro rfl
  -- Kept statements move to shared lists only.
  have shared {o' : Ownership} (heq : ownership = .ownership o') (hk : c.kept n) : o' = .shared := by
    cases o' with
    | shared => rfl
    | single => exact absurd hk (may heq)
  split
  · next same =>
      have heq := Value.eq_of_isSame_ownership same
      refine does_pure fun trail s h => ?_
      obtain ⟨moving, own⟩ := h
      refine ⟨moving.has, moving.done, fun hk => ?_, fun hk => .inl ?_, fun hk => ?_⟩
      · exact ⟨(moving.part hk).2, own.trans (shared heq hk)⟩
      · exact (moving.part hk).1
      · simp only [Store.held, spot, (moving.part hk).1, List.prefix_rfl]
  · next differs =>
      cases howner : ownership.ownershipOf with
      | error fault =>
          -- What is no ownership makes no list.
          refine Does.pre (J := fun _ _ => True) ?_ fun _ _ _ => trivial
          refine does_bind (does_every lasting_true (every_aside (aside_snapshot l))) fun items => ?_
          refine does_bind (does_every lasting_true (every_aside (aside_read _))) fun blocking => ?_
          exact does_bind (R := fun _ _ _ => False) (does_ofExcept fun o' h => by cases h)
            fun _ _ _ h => h.elim
      | ok o' =>
          obtain rfl : ownership = .ownership o' := by
            cases ownership <;> cases howner
            rfl
          refine Does.pre (does_copy (shared rfl)) fun trail s h => ⟨h.1, fun hk => ?_⟩
          cases o with
          | single => exact h.2
          | shared =>
              rw [shared rfl hk] at differs
              exact absurd (by simp [Value.isSame, Value.identity?]) differs

/-! ## Moving statements -/

theorem does_adoptPart (may : ownership = .ownership .single → ¬ c.kept n) (hq : q ∈ n.parts) :
    Does c (Moved c n done) (n.adoptPart ownership q) fun _ => Moved c n (done ++ [q]) := by
  rw [adoptPart_eq]
  refine does_bind (R := fun v trail s => ∃ l, Moving c n done q l trail s ∧ v = .object (.list l)) ?_
    fun v => does_exists fun l => does_pull ?_
  · refine does_read fun trail s h good _ => ⟨s.part n q, ⟨h.1, ?_, h.2, fun _ => ⟨rfl, ?_⟩⟩,
      good.housed.partValue n q⟩
    · exact saw_append.mpr (.inr ⟨⟨h.1, hq⟩, rfl⟩)
    · exact good.housed.known (.part n q) ⟨h.1, hq⟩
  rintro rfl
  refine does_bind (does_listAdopt may) fun l' => does_modify fun trail s ready good _ _ => ?_
  rw [putPart_eq (good.housed.bare _)]
  refine ⟨?_, (hasNode_setPart ..).mpr ready.has, fun hk r hr mem => shares_setPart n q l' ?_⟩
  · by_cases same : s.part n q = l'
    · rw [← same, setPart_same]
      exact .refl s
    · refine .setPart ⟨ready.has, hq⟩ (fun hk settled => ?_) ready.same
      exact (ready.part hk).elim same fun free => free (settled q hq)
  · rw [part_setPart ready.has hq hr]
    split
    · exact ready.shares hk
    · next ne => exact ready.done hk r hr ((List.mem_append.mp mem).resolve_right (by simpa using ne))

/-- A statement that is kept moves to shared lists, all of them. -/
theorem does_adopt (n : Node) (may : ownership = .ownership .single → ¬ c.kept n) :
    Does c (fun _ s => s.HasNode n) (n.adopt ownership)
      fun _ _ s => s.HasNode n ∧ (c.kept n → s.Settled n) := by
  have each (qs : List Part) (hsub : qs ⊆ n.parts) (done : List Part) :
      Does c (Moved c n done) (n.adoptParts ownership qs) fun _ => Moved c n (done ++ qs) := by
    induction qs generalizing done with
    | nil => exact does_pure fun _ _ h => by rwa [List.append_nil]
    | cons q rest ih =>
        rw [List.cons_subset] at hsub
        refine does_bind (does_adoptPart may hsub.1) fun _ => (ih hsub.2 (done ++ [q])).post ?_
        exact fun _ _ _ h => by rwa [List.append_assoc] at h
  refine ((each n.parts (List.Subset.refl _) []).pre fun _ s has => ⟨has, ?_⟩).post ?_
  · exact fun _ _ _ h => nomatch h
  · exact fun _ _ s h => ⟨h.1, fun hk q hq => h.2 hk q hq hq⟩

end

end Overlap

end NinjaFile
