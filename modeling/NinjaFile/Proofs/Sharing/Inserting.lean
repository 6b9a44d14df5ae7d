import NinjaFile.Proofs.Sharing.Making

/-!
# Inserting among others

A statement is moved to shared lists one by one before it is appended.  The call then
appends it in one step, and only numbers and log lines come after that.
-/

namespace NinjaFile.Sharing

open Store Program

/-- The statement is the call's own, and some of its lists are shared by now. -/
structure Given (c : Setting) (n : Node) (done : List Part) (trail : List (Store × Store))
    (s : Store) : Prop where
  clear : Clear c trail s
  mine : Mine c n trail s
  shares : ∀ q ∈ done, q ∈ n.parts ∧ s.Shares (s.part n q)

/-- What has been seen of a list of the call's own statement. -/
structure Seen (c : Setting) (n : Node) (done : List Part) (q : Part) (l : ListId)
    (items : List Value) (trail : List (Store × Store)) (s : Store) : Prop where
  given : Given c n done trail s
  part : s.part n q = l
  items : (s.list l).items = items

section

variable {c : Setting} {held : List (LockId × Mode)} {J : Assertion} {n : Node} {done : List Part}
  {q : Part} {l : ListId} {items : List Value} {trail : List (Store × Store)} {s s' : Store}

theorem firm_given (n : Node) (done : List Part) : Firm c (Given c n done) where
  stable trail s s' h hrely := by
    refine ⟨h.clear, (firm_mine n).stable _ _ _ h.mine hrely, fun q hq => ?_⟩
    obtain ⟨mem, shares⟩ := h.shares q hq
    rw [hrely.parts n h.mine.own q mem]
    exact ⟨mem, hrely.grows.shares shares⟩
  quiet trail s s' h like same := by
    refine ⟨firm_clear.quiet _ _ _ h.clear like same, (firm_mine n).quiet _ _ _ h.mine like same,
      fun q hq => ?_⟩
    obtain ⟨mem, shares⟩ := h.shares q hq
    rw [like.part]
    exact ⟨mem, (like.shares _).mpr shares⟩

theorem firm_seen (hq : q ∈ n.parts) : Firm c (Seen c n done q l items) where
  stable trail s s' h hrely := by
    have own : c.stake.HasList trail l := h.part ▸ h.given.mine.lists q hq
    refine ⟨(firm_given n done).stable _ _ _ h.given hrely, ?_, (hrely.items l own).trans h.items⟩
    exact (hrely.parts n h.given.mine.own q hq).trans h.part
  quiet trail s s' h like same :=
    ⟨(firm_given n done).quiet _ _ _ h.given like same, (like.part n q).trans h.part,
      (like.items l).trans h.items⟩

/-! ## Moving lists -/

/-- A shared list to be put in the place of a part: the part itself, or a copy of it. -/
structure Copy (c : Setting) (n : Node) (done : List Part) (q : Part) (l : ListId)
    (trail : List (Store × Store)) (s : Store) : Prop where
  given : Given c n done trail s
  shares : s.Shares l
  own : c.stake.HasList trail l
  fits : s.part n q = l ∨ Loose s l ∧ l ≠ c.arena.statements ∧
    (s.list l).items = (s.list (s.part n q)).items

theorem stable_copy (hq : q ∈ n.parts) : Stable c (Copy c n done q l) := by
  intro trail s s' h hrely
  have same := hrely.parts n h.given.mine.own q hq
  refine ⟨(firm_given n done).stable _ _ _ h.given hrely, hrely.grows.shares h.shares, h.own, ?_⟩
  rw [same]
  rcases h.fits with heq | ⟨loose, ne, items⟩
  · exact .inl heq
  · refine .inr ⟨fun m hm r hr heq => ?_, ne, ?_⟩
    · subst heq
      obtain ⟨has, heq⟩ := hrely.others m hm r hr h.own
      exact loose m has r hr heq.symm
    · rw [hrely.items _ h.own, hrely.items _ (h.given.mine.lists q hq)]
      exact items

private theorem Seen.copied (h : Seen c n done q l items trail s) (hq : q ∈ n.parts)
    (hsafe : Safe c.document c.arena s) (blocking : Bool) :
    let s' := (s.insertList (.make .shared blocking items)).2
    Act c.arena c.stake trail s s' ∧ Copy c n done q ⟨s.lists.size⟩ (trail ++ [(s, s')]) s' := by
  intro s'
  have hadds : s.Adds s' := adds_insertList s _
  have larger : s'.lists.size = s.lists.size + 1 := by simp [s', insertList]
  obtain ⟨known, ne⟩ := hsafe.parts n h.given.mine.has q hq
  have found : s'.list ⟨s.lists.size⟩ = .make .shared blocking items := by
    rw [list_insertList, if_pos rfl]
  refine ⟨.list _ _ _ fun v hv => ?_, ⟨?_, ?_, ?_⟩, ?_, ?_, .inr ⟨?_, ?_, ?_⟩⟩
  · rw [← h.items, ← h.part] at hv
    exact hsafe.lines _ ne v hv
  · exact (added_same (by rw [hadds.list _ hsafe.place.known])).trans h.given.clear
  · refine ⟨hasNode_mono h.given.mine.own, hadds.hasNode h.given.mine.has, fun r hr => ?_⟩
    rw [hadds.part h.given.mine.has]
    exact hasList_mono (h.given.mine.lists r hr)
  · intro r hr
    obtain ⟨mem, shares⟩ := h.given.shares r hr
    rw [hadds.part h.given.mine.has]
    exact ⟨mem, hadds.shares shares⟩
  · exact ⟨larger ▸ Nat.lt_succ_self _, by rw [found]; rfl⟩
  · exact Stake.hasList_append.mpr (.inr ⟨Nat.le_refl _, larger ▸ Nat.lt_succ_self _⟩)
  · intro m hm r hr heq
    rw [part_insertList] at heq
    have := (hsafe.parts m ((hasNode_insertList ..).mp hm) r hr).1
    rw [heq] at this
    exact Nat.lt_irrefl _ this
  · exact fun heq => Nat.lt_irrefl _ (heq ▸ hsafe.place.known)
  · rw [found, hadds.part h.given.mine.has, hadds.list _ known, h.part, h.items]
    rfl

private theorem does_listAdopt (hq : q ∈ n.parts) :
    Does c [] (fun trail s => Given c n done trail s ∧ s.part n q = l)
      (l.adopt (.ownership .shared)) fun l' => Copy c n done q l' := by
  have firm : Firm c fun trail s => Given c n done trail s ∧ s.part n q = l := by
    refine ⟨fun trail s s' h hrely => ?_, fun trail s s' h like same => ?_⟩
    · exact ⟨(firm_given n done).stable _ _ _ h.1 hrely,
        (hrely.parts n h.1.mine.own q hq).trans h.2⟩
    · exact ⟨(firm_given n done).quiet _ _ _ h.1 like same, (like.part n q).trans h.2⟩
  refine does_bind (R := fun own trail s => (Given c n done trail s ∧ s.part n q = l) ∧
    own = .ownership (s.list l).ownership ∧ l.index < s.lists.size) ?_ fun own => ?_
  · refine does_read firm fun trail s h hsafe => ⟨h, ?_, ?_⟩
    · rw [listOwnership, assigned?, hsafe.unassigned]
      rfl
    · exact h.2 ▸ (hsafe.parts n h.1.mine.has q hq).1
  split
  · next same =>
      refine does_pure fun trail s found => ?_
      obtain ⟨⟨given, part⟩, heq, known⟩ := found
      have shared : (s.list l).ownership = .shared := by
        rw [heq] at same
        simpa [Value.isSame, Value.identity?, eq_comm] using same
      exact ⟨given, ⟨known, shared⟩, part ▸ given.mine.lists q hq, .inl part⟩
  · refine does_bind (R := fun items => Seen c n done q l items) ?_ fun items => ?_
    · refine does_mono (J := fun trail s => Given c n done trail s ∧ s.part n q = l) ?_
        (fun _ _ h => h.1) fun _ _ _ h => h
      refine does_snapshot firm (fun trail s h _ => .inr (.inl (h.2 ▸ h.1.mine.lists q hq))) ?_
      exact fun trail s h _ => ⟨h.1, h.2, rfl⟩
    refine does_bind (R := fun blocking trail s => Seen c n done q l items trail s ∧
      ∃ b, blocking = .bool b) ?_ fun blocking => ?_
    · refine does_read (firm_seen hq) fun trail s h hsafe => ⟨h, (s.list l).blocking, ?_⟩
      rw [listBlocking, assigned?, hsafe.unassigned]
      rfl
    refine does_pull ?_
    rintro ⟨b, rfl⟩
    exact does_update (firm_seen hq).stable fun trail s h hsafe => h.copied hq hsafe b

theorem does_adoptPart (hq : q ∈ n.parts) :
    Does c [] (Given c n done) (n.adoptPart (.ownership .shared) q)
      fun _ => Given c n (q :: done) := by
  rw [adoptPart_eq]
  refine does_bind (R := fun v trail s => ∃ l, v = .object (.list l) ∧
    Given c n done trail s ∧ s.part n q = l) ?_ fun v => ?_
  · refine does_read (firm_given n done) fun trail s h hsafe => ⟨s.part n q, ?_, h, rfl⟩
    rw [partValue, assigned?, hsafe.unassigned]
    rfl
  rintro g s hheld ⟨l, rfl, h⟩
  refine does_bind (does_listAdopt hq) (fun l' => ?_) g s hheld h
  refine does_modify (stable_copy hq) fun trail s h hsafe => ?_
  have bare : s.Bare n.identity := fun name => by
    rw [assigned?, hsafe.unassigned]
    rfl
  rw [putPart_eq bare]
  have has := h.given.mine.has
  have given : Given c n (q :: done) (trail ++ [(s, s.setPart n q l')]) (s.setPart n q l') := by
    refine ⟨(added_same (by rw [list_setPart])).trans h.given.clear, ⟨hasNode_mono h.given.mine.own,
      (hasNode_setPart ..).mpr has, fun r hr => hasList_mono ?_⟩, fun r hr => ?_⟩
    · rcases part_setPart_or has hq hr l' with ⟨-, -, heq⟩ | heq <;> rw [heq]
      · exact h.own
      · exact h.given.mine.lists r hr
    · have mem : r ∈ n.parts := by
        rcases List.mem_cons.mp hr with rfl | hr
        · exact hq
        · exact (h.given.shares r hr).1
      refine ⟨mem, shares_setPart n q l' ?_⟩
      have found := part_setPart has hq mem l'
      by_cases hrq : r = q
      · rw [found, if_pos hrq]
        exact h.shares
      · rw [found, if_neg hrq]
        exact (h.given.shares r ((List.mem_cons.mp hr).resolve_left hrq)).2
  refine ⟨?_, given⟩
  rcases h.fits with heq | ⟨loose, ne, items⟩
  · rw [← heq, setPart_same]
    exact .quiet (.refl s) rfl
  · exact .part h.given.mine.own has hq h.own loose h.shares ne items

theorem does_adopt : Does c [] (Given c n []) (n.adopt (.ownership .shared))
    fun _ trail s => Clear c trail s ∧ s.Listed n.toValue := by
  have each : ∀ parts ⊆ n.parts, ∀ done, Does c [] (Given c n done)
      (n.adoptParts (.ownership .shared) parts) fun _ => Given c n (parts.reverse ++ done) := by
    intro parts
    induction parts with
    | nil => exact fun _ done => does_pure fun _ _ h => h
    | cons q rest ih =>
        intro hsub done
        rw [List.cons_subset] at hsub
        refine does_bind (does_adoptPart hsub.1) fun _ => ?_
        simpa using ih hsub.2 (q :: done)
  refine does_mono (each n.parts (List.Subset.refl _) []) (fun _ _ h => h) fun _ trail s h => ?_
  exact ⟨h.clear, .node h.mine.has fun q hq => (h.shares q (by simpa using hq)).2⟩

/-! ## Appending -/

/-- The call has appended one thing to the document. -/
def Once (c : Setting) : Assertion := fun trail _ => (added c.arena.statements trail).length = 1

/-- The call has appended one thing to the document, and the handle leads into it. -/
def Gave (c : Setting) (h : Handle) : Assertion := fun trail s =>
  Once c trail s ∧ h.arena = c.arena

theorem firm_once : Firm c (Once c) where
  stable _ _ _ h _ := h
  quiet _ _ _ h like _ := (congrArg List.length (added_same (like.items _))).trans h

theorem does_addStatement (goes : c.stake.holds = false) (inserts : c.stake.inserts = true)
    (v : Value) :
    Does c [] (fun trail s => Clear c trail s ∧ s.Listed v) (c.arena.statements.add v)
      fun _ => Once c := by
  have firm : Firm c fun trail s => Clear c trail s ∧ s.Listed v :=
    firm_clear.and (durable_listed v).firm
  refine does_guarded firm.stable (fun _ _ _ _ => ⟨goes, .inl ⟨rfl, inserts⟩⟩) ?_
  refine does_update firm.stable fun trail s ⟨clear, listed⟩ hsafe => ⟨.insert inserts clear listed, ?_⟩
  rw [Once, added_append, show added _ trail = [] from clear, added_add hsafe.place.known]
  rfl

theorem field_kind {v : Value} (h : s.Listed v) :
    ∃ o k, v = .object o ∧ o.kind? = some k ∧ v.field? s "kind" = some (.kind k) := by
  cases h with
  | @node n has shares => cases n <;> exact ⟨_, _, rfl, rfl, rfl⟩
  | @fixed o h => cases o <;> first | exact ⟨_, _, rfl, rfl, rfl⟩ | cases h

theorem kindOf_eq (v : Value) : v.kindOf = v.storedMember "kind" := by
  rw [Value.kindOf, Value.member.eq_def]
  split
  · next h =>
      rw [Handle.member, if_neg]
      cases h.expected <;> simp [Expected.computes, Expected.forwards]
  · rfl

theorem does_logBy (firm : Firm c J) (view : Option View) (level : Int) (text : String) :
    Does c held J (logBy view level text) fun _ => J := by
  cases view with
  | none => exact does_pure fun _ _ h => h
  | some view =>
      refine does_bind (R := fun plain trail s => J trail s ∧ plain = true) ?_ fun plain => ?_
      · refine does_read firm fun trail s h hsafe => ⟨h, ?_⟩
        simp [View.isPlain, assigned?, hsafe.unassigned]
      · refine does_pull ?_
        rintro rfl
        exact does_quiet (f := fun s : Store => ((), { s with logging := _ })) firm
          (fun s => .of_lists rfl rfl rfl rfl rfl rfl) (fun _ => rfl) fun _ _ h _ => h

theorem does_logAppended (v : Value) (index : Nat) (firm : Firm c J)
    (listed : ∀ trail s, J trail s → s.Listed v) :
    Does c held J (c.arena.logAppended v index) fun _ => J := by
  refine does_bind (R := fun logger trail s => J trail s ∧ logger = c.arena.logger) ?_ fun logger => ?_
  · refine does_storedMember firm fun trail s w h _ hw => ⟨h, ?_⟩
    exact (Option.some.inj hw).symm
  refine does_pull ?_
  rintro rfl
  refine does_bind (R := fun _ => J) (does_ofExcept (fun _ _ _ _ h => h) ?_) fun view => ?_
  · intro fault h
    rw [Arena.logger] at h
    split at h <;> cases h
  refine does_bind (R := fun _ => J) ?_ fun word => does_logBy firm view _ _
  rw [Value.kindWord, kindOf_eq]
  refine does_bind (R := fun w trail s => J trail s ∧ ∃ k, w = .kind k) ?_ fun w => ?_
  · refine does_storedMember firm fun trail s w h _ hw => ⟨h, ?_⟩
    obtain ⟨-, k, -, -, hk⟩ := field_kind (listed _ _ h)
    exact ⟨k, Option.some.inj (hw.symm.trans hk)⟩
  · refine does_pull ?_
    rintro ⟨k, rfl⟩
    exact does_pure fun _ _ h => h

/-- What may be appended: a statement of the call's own, or one without lists. -/
def Appendable (c : Setting) (v : Value) : Assertion := fun trail s =>
  (∃ n : Node, v = n.toValue ∧ Given c n [] trail s) ∨
    ∃ o : Object, v = .object o ∧ o.isFrozen = true ∧ Clear c trail s

private theorem does_arenaAdopt (shared : c.arena.ownership = .shared) (v : Value) :
    Does c [] (Appendable c v) (c.arena.adopt v) fun _ trail s => Clear c trail s ∧ s.Listed v := by
  have node (n : Node) : Does c [] (Given c n []) (c.arena.adopt n.toValue)
      fun _ trail s => Clear c trail s ∧ s.Listed n.toValue := by
    rw [Arena.adopt, show n.toValue.node? = some n from Object.node?_ofNode n]
    refine does_bind (R := fun ownership trail s => Given c n [] trail s ∧
      ownership = Value.ownership .shared) ?_ fun ownership => ?_
    · refine does_storedMember (firm_given n []) fun trail s w h _ hw => ⟨h, ?_⟩
      have hw : some (Value.ownership c.arena.ownership) = some w := hw
      exact (Option.some.inj hw).symm.trans (congrArg Value.ownership shared)
    · refine does_pull ?_
      rintro rfl
      exact does_adopt
  have fixed (o : Object) (frozen : o.isFrozen) : Does c [] (Clear c) (c.arena.adopt (.object o))
      fun _ trail s => Clear c trail s ∧ s.Listed (.object o) := by
    have none : (Value.object o).node? = none := by cases o <;> first | rfl | cases frozen
    rw [Arena.adopt, none]
    exact does_pure fun _ _ h => ⟨h, .fixed frozen⟩
  rintro g s hheld (⟨n, rfl, given⟩ | ⟨o, rfl, frozen, clear⟩)
  · exact node n g s hheld given
  · exact fixed o frozen g s hheld clear

theorem does_arenaAppend (goes : c.stake.holds = false) (inserts : c.stake.inserts = true)
    (shared : c.arena.ownership = .shared) (v : Value) :
    Does c [] (Appendable c v) (c.arena.append v) fun _ => Once c := by
  refine does_bind (does_arenaAdopt shared v) fun _ => ?_
  have append := does_frame (durable_listed v).persistent (does_addStatement goes inserts v)
  refine does_bind (R := fun _ trail s => Once c trail s ∧ s.Listed v)
    (does_mono append (fun _ _ h => ⟨h, h.2⟩) fun _ _ _ h => h) fun index => ?_
  have firm : Firm c fun trail s => Once c trail s ∧ s.Listed v :=
    firm_once.and (durable_listed v).firm
  exact does_bind (does_logAppended v index firm fun _ _ h => h.2) fun _ => does_pure fun _ _ h => h.1

theorem does_insert (goes : c.stake.holds = false) (inserts : c.stake.inserts = true)
    (shared : c.arena.ownership = .shared) (expected : Expected) (v : Value) :
    Does c [] (Appendable c v) ((Value.object (.arena c.arena)).insert expected v) (Gave c) := by
  refine does_bind (does_arenaAppend goes inserts shared v) fun index => ?_
  exact does_quiet firm_once (fun s => .of_lists rfl rfl rfl rfl rfl rfl) (fun _ => rfl)
    fun _ _ h _ => ⟨h, rfl⟩

end

end NinjaFile.Sharing
