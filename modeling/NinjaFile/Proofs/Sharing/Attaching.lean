import NinjaFile.Proofs.Sharing.Inserting

/-!
# Attaching among others

What is attached goes into a list of the call's own statement, right behind what that
list held, and nowhere else.
-/

namespace NinjaFile.Sharing

open Store Program

/-- The receiver is the statement, or a handle that leads to it. -/
inductive Aims (s : Store) (n : Node) : Receiver → Prop where
  | node : Aims s n (.node n)
  | handle {h : Handle} (shares : s.Shares h.arena.statements) (index : 0 ≤ h.index)
      (item : (s.list h.arena.statements).items[h.index.toNat]? = some n.toValue) :
      Aims s n (.handle h)

theorem durable_aims (n : Node) (r : Receiver) : Durable fun s => Aims s n r := by
  intro s s' h hgrows
  cases h with
  | node => exact .node
  | @handle h shares index item =>
      refine .handle (hgrows.shares shares) index ?_
      obtain ⟨more, heq⟩ := hgrows.items h.arena.statements
      rw [← heq, List.getElem?_append_left (List.getElem?_eq_some_iff.mp item).1]
      exact item

/-- So much has the call added to each part of each statement. -/
abbrev Tally := Node → Part → List Value

/-- Something more in one part. -/
def Tally.add (tally : Tally) (n : Node) (q : Part) (items : List Value) : Tally :=
  fun m r => tally m r ++ (if m = n ∧ r = q then items else [])

theorem Tally.add_add (tally : Tally) (n : Node) (q : Part) (items more : List Value) :
    (tally.add n q items).add n q more = tally.add n q (items ++ more) := by
  funext m r
  simp only [Tally.add, List.append_assoc]
  split <;> rfl

theorem Tally.add_nil (tally : Tally) (n : Node) (q : Part) : tally.add n q [] = tally := by
  funext m r
  simp [Tally.add]

/-- A call in the middle of attaching to its own statement. -/
structure Attaching (c : Setting) (r : Receiver) (n : Node) (tally : Tally)
    (trail : List (Store × Store)) (s : Store) : Prop where
  clear : Clear c trail s
  mine : Mine c n trail s
  aims : Aims s n r
  gained : ∀ m q, gained m q trail = tally m q

section

variable {c : Setting} {held : List (LockId × Mode)} {J : Assertion} {r : Receiver} {n : Node}
  {tally : Tally} {q : Part} {trail : List (Store × Store)} {s s' : Store}

theorem firm_attaching (r : Receiver) (n : Node) (tally : Tally) :
    Firm c (Attaching c r n tally) where
  stable _ _ _ h hrely :=
    ⟨h.clear, (firm_mine n).stable _ _ _ h.mine hrely, durable_aims n r _ _ h.aims hrely.grows,
      h.gained⟩
  quiet _ _ _ h like same :=
    ⟨firm_clear.quiet _ _ _ h.clear like same, (firm_mine n).quiet _ _ _ h.mine like same,
      durable_aims n r _ _ h.aims (.alike like),
      fun m q => (gained_same (content_alike like m q)).trans (h.gained m q)⟩

theorem firm_part (r : Receiver) (tally : Tally) (hq : q ∈ n.parts) (l : ListId) :
    Firm c fun trail s => Attaching c r n tally trail s ∧ s.part n q = l where
  stable _ _ _ h hrely :=
    ⟨(firm_attaching r n tally).stable _ _ _ h.1 hrely,
      (hrely.parts n h.1.mine.own q hq).trans h.2⟩
  quiet _ _ _ h like same :=
    ⟨(firm_attaching r n tally).quiet _ _ _ h.1 like same, (like.part n q).trans h.2⟩

/-! ## The list to add to -/

theorem does_resolve : Does c [] (Attaching c r n tally) r.resolve fun m trail s =>
    Attaching c r n tally trail s ∧ m = n ∧ (r.takesPaths → ∃ b, n = .build b) := by
  cases r with
  | mixin m => exact does_fail rfl
  | node m =>
      refine does_fact (m = n) (fun _ _ h => by cases h.aims; rfl) ?_
      rintro rfl
      refine does_pure fun _ _ h => ⟨h, rfl, fun takes => ?_⟩
      cases m <;> first | exact ⟨_, rfl⟩ | cases takes
  | handle p =>
      refine does_bind (R := fun w trail s => Attaching c (.handle p) n tally trail s ∧
        w = n.toValue ∧ p.expected.admits n.toValue) ?_ fun w => ?_
      · refine does_statement (firm_attaching _ n tally) (fun _ _ h => ?_) fun trail s w h hw admits => ?_
        · cases h.aims with
          | handle shares => exact shares
        · cases h.aims with
          | handle shares index item =>
              have eq : Value.listItem (s.list p.arena.statements).items (.int p.index) =
                  .ok n.toValue := by
                have := Handle.Leads.listItem_eq item
                rwa [Int.toNat_of_nonneg index] at this
              obtain rfl : n.toValue = w := Except.ok.inj (eq.symm.trans hw)
              exact ⟨h, rfl, admits⟩
      · refine does_pull ?_
        rintro ⟨rfl, admits⟩
        have node : n.toValue.node? = some n := Object.node?_ofNode n
        rw [node]
        refine does_pure fun _ _ h => ⟨h, rfl, fun takes => ?_⟩
        have expected : p.expected = .build := by simpa [Receiver.takesPaths] using takes
        rw [expected] at admits
        cases n <;> first | exact ⟨_, rfl⟩ | cases admits

/-- A part that the receiver has. -/
def HasPart (r : Receiver) (q : Part) : Prop := q = .bindings ∨ r.takesPaths

theorem does_part (has : HasPart r q) : Does c [] (Attaching c r n tally) (r.part q)
    fun v trail s => ∃ l, (Attaching c r n tally trail s ∧ s.part n q = l) ∧
      v = .object (.list l) ∧ q ∈ n.parts := by
  refine does_bind does_resolve fun m => ?_
  refine does_pull ?_
  rintro ⟨rfl, build⟩
  refine does_read (firm_attaching r m tally) fun trail s h hsafe =>
    ⟨s.part m q, ⟨h, rfl⟩, ?_, ?_⟩
  · rw [partValue, assigned?, hsafe.unassigned]
    rfl
  · rcases has with rfl | takes
    · exact bindings_mem_parts m
    · obtain ⟨b, rfl⟩ := build takes
      cases q with
      | bindings => exact bindings_mem_parts _
      | paths slot => exact paths_mem_parts b slot

/-! ## Adding -/

private theorem Attaching.append (h : Attaching c r n tally trail s) (hq : q ∈ n.parts)
    (hsafe : Safe c.document c.arena s) {items : List Value} (lines : ∀ v ∈ items, v.isLine) :
    let s' := s.modifyList (s.part n q) (·.append items)
    Act c.arena c.stake trail s s' ∧
      Attaching c r n (tally.add n q items) (trail ++ [(s, s')]) s' := by
  intro s'
  have ne := (hsafe.parts n h.mine.has q hq).2
  have act : Act c.arena c.stake trail s s' := .append (h.mine.lists q hq) ne items lines
  refine ⟨act, ?_, ⟨hasNode_mono h.mine.own, (hasNode_modifyList ..).mpr h.mine.has, ?_⟩,
    durable_aims n r _ _ h.aims act.grows, fun m p => ?_⟩
  · exact (added_same (by rw [items_append_eq, if_neg fun heq => ne heq.1])).trans h.clear
  · intro p hp
    rw [part_modifyList]
    exact hasList_mono (h.mine.lists p hp)
  · rw [gained_append_part hsafe h.mine.has hq, h.gained]
    rfl

variable (goes : c.stake.holds = false)

include goes

theorem does_addPart (hq : q ∈ n.parts) (l : ListId) {v : Value} (line : v.isLine) :
    Does c [] (fun trail s => Attaching c r n tally trail s ∧ s.part n q = l)
      ((Value.object (.list l)).add v) fun _ => Attaching c r n (tally.add n q [v]) := by
  have firm := firm_part (c := c) r tally hq l
  refine does_bind (R := fun _ => Attaching c r n (tally.add n q [v])) ?_ fun _ =>
    does_pure fun _ _ h => h
  refine does_guarded firm.stable
    (fun _ _ h _ => ⟨goes, .inr (h.2 ▸ h.1.mine.lists q hq)⟩) ?_
  refine does_update firm.stable ?_
  rintro trail s ⟨h, rfl⟩ hsafe
  exact h.append hq hsafe fun w hw => List.mem_singleton.mp hw ▸ line

theorem does_bindPair (name value : Value) :
    Does c [] (Attaching c r n tally) (r.bind name value) fun _ trail s =>
      ∃ v, Attaching c r n (tally.add n .bindings [v]) trail s ∧ Binds name value v := by
  refine does_bind (does_makeBinding (firm_attaching r n tally) name value) fun v => ?_
  refine does_pull fun binds => ?_
  refine does_bind (does_part (.inl rfl)) fun place => does_exists fun l => does_pull ?_
  rintro ⟨rfl, hq⟩
  exact does_mono (does_addPart goes hq l binds.line) (fun _ _ h => h) fun _ _ _ h => ⟨v, h, binds⟩

theorem does_attach (pairs : Attachment) :
    Does c [] (Attaching c r n tally) (r.attach pairs) fun _ trail s =>
      ∃ items, Attaching c r n (tally.add n .bindings items) trail s ∧
        List.Forall₂ (fun pair v => Binds pair.1 pair.2 v) pairs items := by
  induction pairs generalizing tally with
  | nil => exact does_pure fun _ _ h => ⟨[], by rwa [Tally.add_nil], .nil⟩
  | cons pair rest ih =>
      refine does_bind (does_bindPair goes pair.1 pair.2) fun _ => does_exists fun v => ?_
      refine does_pull fun binds => does_mono ih (fun _ _ h => h) fun _ trail s h => ?_
      obtain ⟨items, h, all⟩ := h
      rw [Tally.add_add] at h
      exact ⟨v :: items, h, .cons binds all⟩

theorem does_usePool {pool : Value} :
    Does c [] (fun trail s => Attaching c r n tally trail s ∧ s.Offers c.stake.borrows pool) (r.usePool pool)
      fun _ trail s => ∃ v, Attaching c r n (tally.add n .bindings [v]) trail s ∧
        ∃ serial text, v = .object (.binding serial ⟨"pool", text⟩) ∧ Called trail pool text := by
  have firm : Firm c fun trail s => Attaching c r n tally trail s ∧ s.Offers c.stake.borrows pool :=
    (firm_attaching r n tally).and (durable_offers _ pool).firm
  refine does_bind (does_name firm fun _ _ h => h.2) fun name => ?_
  refine does_mono (J := fun trail s => ∃ text, (Attaching c r n tally trail s ∧
    Called trail pool text) ∧ name = .text text) ?_ ?_ fun _ _ _ h => h
  · refine does_exists fun text => does_pull ?_
    rintro rfl
    have past : Persistent fun trail _ => Called trail pool text :=
      persistent_past fun _ step called => called.note step
    refine does_mono (does_frame past (does_attach goes (.one "pool" (.text text))))
      (fun _ _ h => h) ?_
    rintro _ trail s ⟨⟨items, h, all⟩, called⟩
    obtain ⟨v, rfl, serial, b, rfl, name, value⟩ : ∃ v, items = [v] ∧
        Binds (.text "pool") (.text text) v := by
      cases all with
      | cons binds rest =>
          cases rest
          exact ⟨_, rfl, binds⟩
    obtain ⟨first, second⟩ := b
    cases name
    cases value
    exact ⟨_, h, serial, _, rfl, called⟩
  · rintro trail s ⟨⟨h, -⟩, text, rfl, called⟩
    exact ⟨text, ⟨h, called⟩, rfl⟩

theorem does_addPaths (takes : r.takesPaths) (slot : Slot) {paths : Value} :
    Does c [] (fun trail s => Attaching c r n tally trail s ∧ s.Offers c.stake.borrows paths)
      (r.addPaths slot paths) fun _ trail s => ∃ texts, Took trail paths texts ∧
        Attaching c r n (tally.add n (.paths slot) (texts.map .text)) trail s := by
  refine does_bind (does_frame (durable_offers _ paths).persistent (does_part (.inr takes))) fun place => ?_
  refine does_mono (J := fun trail s => ∃ l, ((Attaching c r n tally trail s ∧
    s.part n (.paths slot) = l) ∧ s.Offers c.stake.borrows paths) ∧ place = .object (.list l) ∧
      Part.paths slot ∈ n.parts) ?_ ?_ fun _ _ _ h => h
  · refine does_exists fun l => does_pull ?_
    rintro ⟨rfl, hq⟩
    have firm := (firm_part (c := c) r tally hq l).and
      (durable_offers c.stake.borrows paths).firm
    refine does_bind (does_ofExcept (Q := fun list trail s => ((Attaching c r n tally trail s ∧
      s.part n (.paths slot) = l) ∧ s.Offers c.stake.borrows paths) ∧ list = l)
      (fun list heq _ _ h => ⟨h, ?_⟩) ?_) fun list => ?_
    · exact (Except.ok.inj heq).symm
    · exact fun _ h => nomatch h
    refine does_pull ?_
    rintro rfl
    refine does_bind (does_arguments firm fun _ _ h => h.2) fun texts => ?_
    have firm' := firm.and (firm_took paths texts)
    refine does_guarded firm'.stable
      (fun _ _ h _ => ⟨goes, .inr (h.1.1.2 ▸ h.1.1.1.mine.lists _ hq)⟩) ?_
    refine does_modify firm'.stable ?_
    rintro trail s ⟨⟨⟨h, rfl⟩, -⟩, took⟩ hsafe
    have lines : ∀ w ∈ texts.map Value.text, w.isLine := by
      intro w hw
      obtain ⟨text, -, rfl⟩ := List.mem_map.mp hw
      rfl
    obtain ⟨act, after⟩ := h.append hq hsafe lines
    exact ⟨act, texts, took.note _, after⟩
  · rintro trail s ⟨⟨l, h, place, hq⟩, offers⟩
    exact ⟨l, ⟨h, offers⟩, place, hq⟩

end

end NinjaFile.Sharing
