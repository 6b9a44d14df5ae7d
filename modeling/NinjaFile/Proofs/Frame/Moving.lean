import NinjaFile.Proofs.Frame.Making

/-!
# Moving and appending among others

A statement that moves to another ownership gets copies of its lists, or keeps them.  What is
attached or appended goes into a list that a place has or once had.
-/

namespace NinjaFile

open Store Program

namespace Housing

variable {α : Type} {trail : List (Store × Store)} {s s' : Store} {l : ListId} {n : Node} {q : Part}
  {v : Value} {d : DocumentId} {a : Arena} {r : Receiver} {J : Assertion}

/-! ## Moving lists -/

/-- The list may become that of the place: it was so before, or it was made to be so. -/
def Meant (l : ListId) (n : Node) (q : Part) : Assertion := fun trail s =>
  Saw trail l (.part n q) ∨ Stock [(l, purpose q)] trail s

theorem firm_meant (l : ListId) (n : Node) (q : Part) : Firm (Meant l n q) where
  stable _ _ _ good h rely := h.imp id fun h => (firm_stock _).stable _ _ _ good h rely
  idle _ _ _ good h idle := h.imp (fun saw => saw.mono _) fun h => (firm_stock _).idle _ _ _ good h idle

theorem Meant.act (h : Meant l n q trail s) (good : Good trail s) (has : s.HasPlace (.part n q)) :
    Act trail s (s.setPart n q l) := by
  have documents := documents_setPart s n q l
  have later : s.Later (s.setPart n q l) := by
    refine ⟨Nat.le_of_eq (by rw [lists_setPart]), fun m => (hasNode_setPart ..).mpr, fun d hd => ?_, ?_⟩
    · rw [HasDocument, document, documents]
      exact ⟨hd, rfl⟩
    · exact assigned_setPart s n q l
  -- Only this place can have got the list.
  have homes {j : ListId} {y : Place} (hy : (s.setPart n q l).Houses j y) :
      s.Houses j y ∨ y = .part n q ∧ l = j := by
    have old := (hasPlace_congr (hasNode_setPart s n q l) documents y).mp hy.has
    have spot := (spot_setPart has l old).symm.trans hy.spot
    split at spot
    · next heq => exact .inr ⟨heq, spot⟩
    · exact .inl ⟨old, spot⟩
  have lists (j : ListId) := list_setPart s n q l j
  obtain saw | stock := h
  · have none : Stock ([] ++ []) trail s := stock_nil
    refine (none.house good later lists fun j y hy => ?_).1
    obtain old | ⟨rfl, rfl⟩ := homes hy
    · exact .inl (.inr old)
    · exact .inl (.inl saw)
  · have one : Stock ([] ++ [(l, purpose q)]) trail s := stock
    refine (one.house good later lists fun j y hy => ?_).1
    obtain old | ⟨rfl, rfl⟩ := homes hy
    · exact .inl (.inr old)
    · refine .inr ⟨_, List.mem_singleton_self _, fun z hz => ?_, fun v hv => hv⟩
      exact (homes hz).imp_right And.left

/-- A list that has been seen at a part gives way to a copy, or stays. -/
theorem does_listAdopt (ownership : Value) :
    Does (fun trail _ => Saw trail l (.part n q)) (l.adopt ownership) fun l' => Meant l' n q := by
  have firm := (lasting_saw l (.part n q)).firm
  refine does_bind (does_every firm (every_aside (aside_read _))) fun own => ?_
  split
  · exact does_pure fun _ _ _ saw => .inl saw
  · refine does_bind (R := fun items _ _ => True ∧ ∀ v ∈ items, q.admits v) ?_ fun items => ?_
    · refine does_guarded firm.stable <| does_read firm fun _ _ good saw =>
        ⟨trivial, good.suits (.inl saw)⟩
    refine does_pull fun admits => ?_
    refine does_bind (R := fun blocking _ _ => True ∧ ∃ b, blocking = .bool b) ?_ fun blocking => ?_
    · refine does_read firm_true fun _ s good _ => ⟨trivial, (s.list l).blocking, ?_⟩
      rw [listBlocking, assigned?, good.housed.unassigned]
      rfl
    refine does_pull ?_
    rintro ⟨b, rfl⟩
    refine does_bind (does_ofExcept (Q := fun _ _ _ => True) fun _ _ _ _ _ _ => trivial) fun o => ?_
    refine does_update firm_true.stable fun trail s good _ => ?_
    have none : Stock [] trail s := stock_nil
    obtain ⟨act, stock⟩ := none.insertList good o b admits
    exact ⟨act, .inr stock⟩

theorem does_adoptPart (ownership : Value) (hq : q ∈ n.parts) :
    Does (fun _ s => s.HasNode n) (n.adoptPart ownership q) fun _ _ s => s.HasNode n := by
  rw [adoptPart_eq]
  have firm := (lasting_hasNode n).firm
  refine does_bind (R := fun v trail s => ∃ l, (Saw trail l (.part n q) ∧ s.HasNode n) ∧
    v = .object (.list l)) ?_ fun v => does_exists fun l => does_pull ?_
  · refine does_read firm fun trail s good has => ⟨s.part n q, ⟨?_, has⟩, good.housed.partValue n q⟩
    exact saw_append.mpr (.inr ⟨⟨has, hq⟩, rfl⟩)
  · rintro rfl
    refine does_bind (does_frame (lasting_hasNode n) (does_listAdopt ownership)) fun l' => ?_
    refine does_modify ((firm_meant l' n q).and firm).stable fun trail s good h => ?_
    rw [putPart_eq (good.housed.bare _)]
    exact ⟨h.1.act good ⟨h.2, hq⟩, (hasNode_setPart ..).mpr h.2⟩

theorem does_adopt (n : Node) (ownership : Value) :
    Does (fun _ s => s.HasNode n) (n.adopt ownership) fun _ _ s => s.HasNode n := by
  have each : ∀ qs ⊆ n.parts,
      Does (fun _ s => s.HasNode n) (n.adoptParts ownership qs) fun _ _ s => s.HasNode n := by
    intro qs
    induction qs with
    | nil => exact fun _ => does_pure fun _ _ _ h => h
    | cons q rest ih =>
        intro hsub
        rw [List.cons_subset] at hsub
        exact does_bind (does_adoptPart ownership hsub.1) fun _ => ih hsub.2
  exact each n.parts (List.Subset.refl _)

/-! ## Where statements go -/

/-- The arena is that of the document. -/
def Into (a : Arena) (d : DocumentId) : Assertion := fun _ s =>
  s.HasDocument d ∧ a = (s.document d).arena

theorem lasting_into (a : Arena) (d : DocumentId) : Lasting (Into a d) where
  later _ _ _ h later := by
    obtain ⟨has, same⟩ := later.documents d h.1
    exact ⟨has, by rw [same]; exact h.2⟩
  note _ _ _ h := h

theorem lasting_leads (h : Handle) (d : DocumentId) : Lasting fun _ s => s.Leads h d :=
  ⟨fun _ _ _ leads later => later.leads leads, fun _ _ _ h => h⟩

theorem lasting_hasDocument (d : DocumentId) : Lasting fun _ s => s.HasDocument d :=
  ⟨fun _ _ _ h later => (later.documents d h).1, fun _ _ _ h => h⟩

theorem does_atDocument {P : Assertion} (lasting : Lasting P) {k : Value → Action α}
    {Q : α → Assertion}
    (hk : ∀ a, Does (fun trail s => Into a d trail s ∧ P trail s) (k (.object (.arena a))) Q) :
    Does (fun trail s => s.HasDocument d ∧ P trail s) (d.statements >>= k) Q := by
  have firm := ((lasting_hasDocument d).and lasting).firm
  refine does_bind (R := fun place trail s => ∃ a, (Into a d trail s ∧ P trail s) ∧
    place = .object (.arena a)) ?_ fun place => does_exists fun a => does_pull ?_
  · refine does_storedMember firm fun _ s w _ h hw => ?_
    exact ⟨_, ⟨⟨h.1, rfl⟩, h.2⟩, (Option.some.inj hw).symm⟩
  · rintro rfl
    exact hk a

theorem does_atHandle {h : Handle} {P : Assertion} (lasting : Lasting P) {k : Value → Action α}
    {Q : α → Assertion}
    (hk : Does (fun trail s => Into h.arena d trail s ∧ P trail s) (k (.object (.arena h.arena))) Q) :
    Does (fun trail s => s.Leads h d ∧ P trail s) (h.statements >>= k) Q := by
  have firm := ((lasting_leads h d).and lasting).firm
  refine does_bind (R := fun place trail s => (Into h.arena d trail s ∧ P trail s) ∧
    place = .object (.arena h.arena)) ?_ fun place => does_pull ?_
  · refine does_read firm fun _ s good found => ⟨⟨⟨found.1.has, found.1.arena⟩, found.2⟩, ?_⟩
    rw [Value.stored?_of_unassigned good.housed.unassigned]
    rfl
  · rintro rfl
    exact hk

/-! ## Attaching -/

/-- What is attached to is there, or a handle into a document leads to it. -/
def Aims (r : Receiver) (s : Store) : Prop :=
  match r with
  | .node n => s.HasNode n
  | .handle h => ∃ d, s.Leads h d
  | .mixin _ => True

theorem lasting_aims (r : Receiver) : Lasting fun _ s => Aims r s where
  later _ _ _ h later := by
    cases r with
    | node n => exact later.nodes n h
    | handle p => exact h.imp fun _ => later.leads
    | mixin m => trivial
  note _ _ _ h := h

theorem does_statement (h : Handle) (d : DocumentId) :
    Does (fun _ s => s.Leads h d) h.statement fun w _ s =>
      s.Suits (.statements d) w ∧ h.expected.admits w = true := by
  refine (does_atHandle lasting_true (does_pull fun _ => ?_)).pre fun _ _ h => ⟨h, trivial⟩
  have firm := (lasting_into h.arena d).firm
  refine does_bind (R := fun index trail s => Into h.arena d trail s ∧ index = .int h.index) ?_
    fun index => ?_
  · refine does_read firm fun _ s good into => ⟨into, ?_⟩
    rw [Value.stored?_of_unassigned good.housed.unassigned]
    rfl
  refine does_pull ?_
  rintro rfl
  refine does_bind (R := fun w _ s => s.Suits (.statements d) w) ?_ fun w => ?_
  · refine does_guarded firm.stable ?_
    refine does_bind (R := fun items _ s => ∀ w ∈ items, s.Suits (.statements d) w) ?_ fun items => ?_
    · refine does_read firm fun trail s good into => ?_
      exact good.suits (.inr ⟨into.1, by rw [into.2]; rfl⟩)
    · refine does_ofExcept fun w hw _ _ _ suits => suits w ?_
      exact GuardedList.mem_of_pick (Value.pick_of_listItem hw)
  · split
    · next admits => exact does_pure fun _ _ _ suits => ⟨suits, admits⟩
    · exact does_fail _

theorem does_resolve (r : Receiver) : Does (fun _ s => Aims r s) r.resolve
    fun n _ s => s.HasNode n ∧ (r.takesPaths → ∃ b, n = .build b) := by
  cases r with
  | mixin m => exact does_fail _
  | node n =>
      refine does_pure fun _ _ _ has => ⟨has, fun takes => ?_⟩
      cases n <;> first | exact ⟨_, rfl⟩ | cases takes
  | handle h =>
      refine does_exists fun d => ?_
      refine does_bind (does_statement h d) fun w => ?_
      split
      · next n node =>
          refine does_pure fun _ s _ found => ?_
          obtain ⟨⟨o, rfl, -, has⟩, admits⟩ := found
          refine ⟨has n node, fun takes => ?_⟩
          have expected : h.expected = .build := by simpa [Receiver.takesPaths] using takes
          rw [expected] at admits
          cases o <;> first | exact ⟨_, (Option.some.inj node).symm⟩ | cases admits
      · exact does_fail _

/-- A receiver has bindings, and paths if it is for builds. -/
def HasPart (r : Receiver) (q : Part) : Prop := q = .bindings ∨ r.takesPaths = true

theorem does_part (has : HasPart r q) : Does (fun _ s => Aims r s) (r.part q)
    fun v trail _ => ∃ n l, Saw trail l (.part n q) ∧ v = .object (.list l) := by
  refine does_bind (does_resolve r) fun n => ?_
  refine Does.pre (J := fun _ s => s.HasNode n ∧ q ∈ n.parts) (does_pull fun hq => ?_)
    fun _ s h => ⟨h.1, ?_⟩
  · refine does_read (lasting_hasNode n).firm fun trail s good has =>
      ⟨n, s.part n q, ?_, good.housed.partValue n q⟩
    exact saw_append.mpr (.inr ⟨⟨has, hq⟩, rfl⟩)
  · rcases has with rfl | takes
    · exact bindings_mem_parts n
    · obtain ⟨b, rfl⟩ := h.2 takes
      cases q with
      | bindings => exact bindings_mem_parts _
      | paths slot => exact paths_mem_parts b slot

theorem does_appendTo {lock : LockId} {mode : Mode} {f : Store → α × Store} (items : List Value)
    (appends : ∀ s, (f s).2 = s.modifyList l (·.append items)) (admits : ∀ v ∈ items, q.admits v = true) :
    Does (fun trail _ => Saw trail l (.part n q)) (.guarded lock mode (.update f)) fun _ _ _ => True := by
  have firm := (lasting_saw l (.part n q)).firm
  refine does_guarded firm.stable <| does_update firm.stable fun trail s _ saw => ⟨?_, trivial⟩
  rw [appends]
  exact act_append (.inr ⟨_, .inl saw, admits⟩)

theorem does_bindPair (r : Receiver) (name value : Value) :
    Does (fun _ s => Aims r s) (r.bind name value) fun _ _ _ => True := by
  refine does_bind (does_makeBinding (lasting_aims r).firm name value) fun binding => ?_
  refine does_pull ?_
  rintro ⟨serial, b, rfl⟩
  refine does_bind (does_part (.inl rfl)) fun place => does_exists fun n => does_exists fun l =>
    does_pull ?_
  rintro rfl
  refine does_bind (does_appendTo [.object (.binding serial b)] (fun _ => rfl) ?_)
    fun _ => does_pure fun _ _ _ h => h
  intro v hv
  rw [List.mem_singleton.mp hv]
  rfl

theorem does_attach (r : Receiver) (bindings : Attachment) :
    Does (fun _ s => Aims r s) (r.attach bindings) fun _ _ _ => True := by
  induction bindings with
  | nil => exact does_pure fun _ _ _ _ => trivial
  | cons pair rest ih =>
      refine does_bind (does_along (lasting_aims r) (fun _ _ h => h) (does_bindPair r pair.1 pair.2))
        fun _ => ?_
      exact ih.pre fun _ _ h => h.2

theorem does_usePool (r : Receiver) (pool : Value) :
    Does (fun _ s => Aims r s) (r.usePool pool) fun _ _ _ => True := by
  have member : (pool.member "name").Every Light :=
    every_aside (looks_member pool (by decide) (by decide)).aside
  exact does_bind (does_every (lasting_aims r).firm member) fun name => does_attach r _

theorem does_addPaths (r : Receiver) {slot : Slot} (takes : r.takesPaths) (paths : Value) :
    Does (fun _ s => Aims r s) (r.addPaths slot paths) fun _ _ _ => True := by
  refine does_bind (does_part (.inr takes)) fun place => does_exists fun n => does_exists fun l =>
    does_pull ?_
  rintro rfl
  change Does _ (paths.arguments >>= _) _
  have saw := (lasting_saw l (.part n (.paths slot))).firm
  refine does_bind (does_every saw (every_aside (aside_arguments paths))) fun texts => ?_
  refine does_appendTo (f := fun s => ((), s.modifyList l (·.append (texts.map .text)))) _
    (fun _ => rfl) fun v hv => ?_
  obtain ⟨text, -, rfl⟩ := List.mem_map.mp hv
  rfl

/-! ## Appending -/

theorem does_arenaAdopt (a : Arena) (d : DocumentId) (v : Value) :
    Does (fun _ s => s.Suits (.statements d) v) (a.adopt v) fun _ _ _ => True := by
  rw [Arena.adopt]
  split
  · next n node =>
      have member : (a.member "ownership").Every Light :=
        every_aside (looks_member _ (by decide) (by decide)).aside
      refine does_bind (does_every (lasting_suits _ _).firm member) fun ownership => ?_
      refine ((does_adopt n ownership).pre fun _ _ suits => ?_).post fun _ _ _ _ => trivial
      obtain ⟨o, rfl, -, has⟩ := suits
      exact has n node
  · exact does_pure fun _ _ _ _ => trivial

theorem does_arenaAppend (a : Arena) (d : DocumentId) (v : Value) :
    Does (fun trail s => Into a d trail s ∧ s.Suits (.statements d) v) (a.append v)
      fun _ _ _ => True := by
  have lasting := (lasting_into a d).and (lasting_suits (.statements d) v)
  refine does_bind (does_along lasting (fun _ _ h => h.2) (does_arenaAdopt a d v)) fun _ => ?_
  have firm := (lasting_true.and lasting).firm
  refine does_bind (R := fun _ _ _ => True) ?_ fun index => ?_
  · refine does_guarded firm.stable <| does_update firm.stable fun trail s _ h => ?_
    obtain ⟨-, ⟨has, rfl⟩, suits⟩ := h
    refine ⟨act_append (.inr ⟨.statements d, .inr ⟨has, rfl⟩, fun w hw => ?_⟩), trivial⟩
    rw [List.mem_singleton.mp hw]
    exact suits
  · refine does_bind (does_every firm_true (every_aside (quiet_logAppended a v index).aside)) fun _ => ?_
    exact does_pure fun _ _ _ h => h

theorem does_insert (a : Arena) (d : DocumentId) (expected : Expected) (v : Value) :
    Does (fun trail s => Into a d trail s ∧ s.Suits (.statements d) v)
      ((Value.object (.arena a)).insert expected v)
      fun h _ s => s.Leads h d ∧ h.expected = expected := by
  have lasting := (lasting_into a d).and (lasting_suits (.statements d) v)
  refine does_bind (does_along lasting (fun _ _ h => h) (does_arenaAppend a d v)) fun index => ?_
  exact does_light (lasting_true.and lasting).firm (light_serial fun _ => Nat.le_succ _)
    fun _ _ _ h => ⟨⟨h.2.1.1, h.2.1.2⟩, rfl⟩

end Housing

end NinjaFile
