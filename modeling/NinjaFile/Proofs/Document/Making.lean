import NinjaFile.Document
import NinjaFile.Proofs.Document.Content
import NinjaFile.Proofs.Store.Tame

/-!
# Making nodes

A node that has just been made says what it was made of, its lists are its own, and
nothing that was there before has changed.  All of this still holds when the node has
been moved to another ownership.
-/

namespace NinjaFile

open Program Store Action

/-- A node that is new since `s₀`, with lists of its own, and what it says. -/
structure Made (s₀ : Store) (n : Node) (st : Statement) (s : Store) : Prop where
  adds : s₀.Adds s
  new : ¬ s₀.HasNode n
  has : s.HasNode n
  reads : s.NodeReads n st
  distinct : ∀ q ∈ n.parts, ∀ q' ∈ n.parts, s.part n q = s.part n q' → q = q'
  late : ∀ q ∈ n.parts, s₀.lists.size ≤ (s.part n q).index
  opens : ∀ q ∈ n.parts, s.Open (s.part n q)

/-! ## New lists -/

namespace Store

theorem open_insertList (s : Store) (ownership : Ownership) (blocking : Bool)
    (items : List Value) :
    (s.insertList (.make ownership blocking items)).2.Open ⟨s.lists.size⟩ where
  known := by simp [insertList]
  free := by
    rw [list_insertList, if_pos rfl]
    exact Guard.free_ofOwnership _ _

/-- The store with some more lists that are empty. -/
def grown (ownership : Ownership) (s : Store) : Nat → Store
  | 0 => s
  | n + 1 => ((s.grown ownership n).insertList (.make ownership false [])).2

theorem size_grown (ownership : Ownership) (s : Store) (n : Nat) :
    (s.grown ownership n).lists.size = s.lists.size + n := by
  induction n with
  | zero => rfl
  | succ n ih =>
      rw [grown, insertList]
      simp only [Table.size_insert, ih]
      omega

theorem adds_grown (ownership : Ownership) (s : Store) (n : Nat) :
    s.Adds (s.grown ownership n) := by
  induction n with
  | zero => exact .refl s
  | succ n ih => exact ih.trans (adds_insertList _ _)

theorem list_grown (ownership : Ownership) (s : Store) {n : Nat} {l : ListId}
    (hl : s.lists.size ≤ l.index) (hn : l.index < s.lists.size + n) :
    (s.grown ownership n).list l = .make ownership false [] := by
  induction n with
  | zero => omega
  | succ n ih =>
      rw [grown, list_insertList, size_grown]
      split
      · rfl
      · exact ih (by omega)

theorem open_grown (ownership : Ownership) (s : Store) {n : Nat} {l : ListId}
    (hl : s.lists.size ≤ l.index) (hn : l.index < s.lists.size + n) :
    (s.grown ownership n).Open l where
  known := by
    rw [size_grown]
    exact hn
  free := by
    rw [list_grown ownership s hl hn]
    exact Guard.free_ofOwnership _ _

theorem alone_listMake (ownership : Ownership) (s : Store) (n : Nat) :
    alone (ListId.make ownership false []) (s.grown ownership n) =
      (.ok ⟨s.lists.size + n⟩, s.grown ownership (n + 1)) := by
  rw [ListId.make, alone_update, ← size_grown ownership s n]
  rfl

theorem Open.append {s : Store} {l : ListId} (h : s.Open l) (id : ListId) (items : List Value) :
    (s.modifyList id (·.append items)).Open l where
  known := by
    rw [size_modifyList]
    exact h.known
  free := by
    rw [list_modifyList]
    split
    · exact h.free
    · exact h.free

end Store

/-! ## Rules and pools -/

section OneList

variable {s : Store} (ownership : Ownership) (name value : String)

private theorem returns_withBinding {α : Type} {v : Value} (hv : v.toArgument = .ok value)
    {k : ListId → Action α} {Q : α → Store → Prop}
    (h : ∀ l s', s.Adds s' → s.lists.size ≤ l.index → s'.Open l →
      s'.Lines l [.binding ⟨name, value⟩] → (k l).Returns s' Q) :
    Returns (ListId.make ownership false [] >>= fun bindings =>
      makeBinding (.text name) v >>= fun binding =>
      bindings.add binding >>= fun _ => k bindings) s Q := by
  refine returns_bind (returns_of_alone (alone_listMake ownership s 0) ?_)
  let s₁ : Store := { s.grown ownership 1 with serial := s.serial + 1 }
  have made : alone (makeBinding (.text name) v) (s.grown ownership 1) =
      (.ok (.object (.binding s.serial ⟨name, value⟩)), s₁) := by
    rw [makeBinding, hv]
    rfl
  have hopen : s₁.Open ⟨s.lists.size⟩ :=
    ⟨(open_insertList s ownership false []).known, (open_insertList s ownership false []).free⟩
  refine returns_bind (returns_of_alone made ?_)
  refine returns_bind (returns_of_alone (ListId.alone_add hopen _) ?_)
  refine h _ _ ?_ (Nat.le_refl _) (hopen.append _ _) ?_
  · exact ((adds_insertList s _).trans (adds_serial _ (Nat.le_succ _))).modifyList (Nat.le_refl _) _
  · rw [Lines, items_append_eq, if_pos ⟨rfl, hopen.known⟩]
    have empty : (s₁.list ⟨s.lists.size⟩).items = [] :=
      congrArg GuardedList.items
        (list_grown (n := 1) (l := ⟨s.lists.size⟩) ownership s (Nat.le_refl _) (Nat.lt_succ_self _))
    change ((s₁.list ⟨s.lists.size⟩).items ++ _).map Value.line? = _
    rw [empty]
    rfl

private theorem made_of_one {s' s'' : Store} {n : Node} {st : Statement} {l : ListId}
    {block : List BlockLine} (parts : n.parts = [.bindings]) (hadds : s.Adds s')
    (hadds' : s'.Adds s'') (new : ¬ s.HasNode n) (has : s''.HasNode n)
    (part : s''.part n .bindings = l) (late : s.lists.size ≤ l.index) (hopen : s'.Open l)
    (hlines : s'.Lines l block)
    (reads : s''.Lines (s''.part n .bindings) block → s''.NodeReads n st) : Made s n st s'' := by
  have hopen' := hadds'.open_ hopen
  refine ⟨hadds.trans hadds', new, has, reads ?_, ?_, ?_, ?_⟩
  · rw [part, Lines, hadds'.list l hopen.known]
    exact hlines
  all_goals
    rw [parts]
    simp only [List.forall_mem_singleton, part]
  · exact fun _ => trivial
  · exact late
  · exact hopen'

theorem returns_ruleMake (command : String) :
    Returns (RuleId.make (.text name) (.text command) (.ownership ownership)) s fun r s' =>
      Made s (.rule r) (.rule name [.binding ⟨"command", command⟩]) s' := by
  refine returns_withBinding ownership "command" command rfl fun l s' hadds late hopen hlines => ?_
  refine returns_of_alone (alone_update _ _) ?_
  have found : (s'.insertRule ⟨name, l⟩).2.rule ⟨s'.rules.size⟩ = ⟨name, l⟩ :=
    (Table.get_insert s'.rules _ _).trans (if_pos rfl)
  refine made_of_one rfl hadds (adds_insertRule s' ⟨name, l⟩) (Nat.not_lt.mpr hadds.rules) ?_
    (congrArg RuleRecord.bindings found) late hopen hlines fun h => ⟨?_, h⟩
  · simp [HasNode, insertRule]
  · exact congrArg (fun r : RuleRecord => (r.name, false)) found

theorem returns_poolMake (depth : Nat) (builtIn : Bool) :
    Returns (PoolId.make (.text name) (.int depth) (.ownership ownership) (.bool builtIn)) s
      fun p s' => Made s (.pool p)
        (.pool name [.binding ⟨"depth", toString depth⟩] builtIn) s' := by
  refine returns_withBinding ownership "depth" (toString depth) rfl
    fun l s' hadds late hopen hlines => ?_
  refine returns_of_alone (alone_update _ _) ?_
  have found : (s'.insertPool ⟨name, l, builtIn⟩).2.pool ⟨s'.pools.size⟩ = ⟨name, l, builtIn⟩ :=
    (Table.get_insert s'.pools _ _).trans (if_pos rfl)
  refine made_of_one rfl hadds (adds_insertPool s' ⟨name, l, builtIn⟩)
    (Nat.not_lt.mpr hadds.pools) ?_ (congrArg PoolRecord.bindings found) late hopen hlines
    fun h => ⟨?_, h⟩
  · change s'.pools.size < (s'.insertPool ⟨name, l, builtIn⟩).2.pools.size
    simp [insertPool]
  · exact congrArg (fun p : PoolRecord => (p.name, p.builtIn)) found

end OneList

/-! ## Builds -/

section Builds

variable {s : Store}

/-- How many lists of a build are made before that of a slot. -/
def slotRank : Slot → Nat
  | .outputs => 0
  | .implicitOutputs => 1
  | .inputs => 2
  | .implicitInputs => 3
  | .orderOnlyInputs => 4
  | .validations => 5

/-- How many lists of a build are made before that of a part. -/
def partRank : Part → Nat
  | .paths slot => slotRank slot
  | .bindings => 6

theorem partRank_lt (q : Part) : partRank q < 7 := by
  cases q with
  | bindings => decide
  | paths slot => cases slot <;> decide

theorem partRank_injective {q q' : Part} (h : partRank q = partRank q') : q = q' := by
  cases q with
  | bindings =>
      cases q' with
      | bindings => rfl
      | paths slot => cases slot <;> cases h
  | paths slot =>
      cases q' with
      | bindings => cases slot <;> cases h
      | paths other => cases slot <;> cases other <;> first | rfl | cases h

theorem alone_makeSlots (ownership : Ownership) (s : Store) :
    alone (makeSlots ownership) s =
      (.ok (.ofFn fun slot => ⟨s.lists.size + slotRank slot⟩), s.grown ownership 6) := by
  have made := alone_listMake ownership s
  rw [makeSlots, alone_bind_ok (show alone _ s = _ from made 0), alone_bind_ok (made 1),
    alone_bind_ok (made 2), alone_bind_ok (made 3), alone_bind_ok (made 4),
    alone_bind_ok (made 5)]
  rfl

theorem alone_arguments (texts : List String) (s : Store) :
    (Value.list (texts.map .text)).arguments.alone s = (.ok texts, s) := by
  have converted : Value.toArguments (texts.map .text) = .ok texts := by
    induction texts with
    | nil => rfl
    | cons text rest ih =>
        rw [List.map_cons, Value.toArguments, ih]
        rfl
  change alone (ofExcept (Value.toArguments (texts.map .text))) s = _
  rw [converted]
  rfl

/-- A build whose lists have just been made, each for one part, says what is in them. -/
theorem made_insertBuild {s₁ : Store} (adds : s.Adds s₁) (ruleName : String) {spot : Part → ListId}
    (distinct : ∀ q q', spot q = spot q' → q = q') (late : ∀ q, s.lists.size ≤ (spot q).index)
    (opens : ∀ q, s₁.Open (spot q)) {paths : Slots (List String)} {bindings : List BlockLine}
    (listed : ∀ slot, s₁.Paths (spot (.paths slot)) (paths.get slot))
    (bound : s₁.Lines (spot .bindings) bindings) :
    Made s (.build ⟨s₁.builds.size⟩) (.build ⟨ruleName, paths, bindings⟩)
      (s₁.insertBuild ⟨ruleName, .ofFn fun slot => spot (.paths slot), spot .bindings⟩).2 := by
  let record : BuildRecord := ⟨ruleName, .ofFn fun slot => spot (.paths slot), spot .bindings⟩
  have hadds := adds_insertBuild s₁ record
  have found : (s₁.insertBuild record).2.build ⟨s₁.builds.size⟩ = record :=
    (Table.get_insert s₁.builds _ _).trans (if_pos rfl)
  have part (q : Part) : (s₁.insertBuild record).2.part (.build ⟨s₁.builds.size⟩) q = spot q := by
    cases q with
    | bindings => exact congrArg BuildRecord.bindings found
    | paths slot =>
        simp only [Store.part, found]
        exact Slots.get_ofFn _ slot
  refine ⟨adds.trans hadds, Nat.not_lt.mpr adds.builds, ?_, ⟨?_, fun slot => ?_, ?_⟩,
    fun q _ q' _ same => ?_, fun q _ => ?_, fun q _ => ?_⟩
  · change s₁.builds.size < (s₁.insertBuild record).2.builds.size
    simp [insertBuild]
  · exact congrArg (fun b : BuildRecord => (b.ruleName, false)) found
  · rw [part]
    exact listed slot
  · rw [part]
    exact bound
  · rw [part, part] at same
    exact distinct q q' same
  · rw [part]
    exact late q
  · rw [part]
    exact hadds.open_ (opens q)

theorem returns_buildMake {rule : Value} {ruleName : String}
    (hrule : (rule.member "name").alone s = (.ok (.text ruleName), s)) (outputs : List String)
    (ownership : Ownership) :
    Returns (BuildId.make rule (.list (outputs.map .text)) (.ownership ownership)) s fun b s' =>
      Made s (.build b)
        (.build ⟨ruleName, (Slots.ofFn fun _ => []).set .outputs outputs, []⟩) s' := by
  rw [BuildId.make]
  refine returns_bind (returns_of_alone hrule ?_)
  refine returns_bind (returns_of_alone (alone_ofExcept _ _) ?_)
  refine returns_bind (returns_of_alone (alone_makeSlots ownership s) ?_)
  refine returns_bind (returns_of_alone (alone_listMake ownership s 6) ?_)
  refine returns_bind (returns_of_alone (alone_arguments outputs _) ?_)
  let spot (q : Part) : ListId := ⟨s.lists.size + partRank q⟩
  have distinct (q q' : Part) (same : spot q = spot q') : q = q' :=
    partRank_injective (by simpa [spot] using same)
  have hopen (q : Part) : (s.grown ownership 7).Open (spot q) :=
    open_grown ownership s (Nat.le_add_right _ _) (Nat.add_lt_add_left (partRank_lt q) _)
  refine returns_bind (returns_of_alone (ListId.alone_extend (hopen (.paths .outputs)) _) ?_)
  refine returns_of_alone (alone_update _ _) ?_
  let s₁ := (s.grown ownership 7).modifyList (spot (.paths .outputs)) (·.append (outputs.map .text))
  have adds : s.Adds s₁ := (adds_grown ownership s 7).modifyList (Nat.le_refl _) _
  have items (q : Part) :
      (s₁.list (spot q)).items = if q = .paths .outputs then outputs.map .text else [] := by
    rw [items_append_eq, list_grown ownership s (Nat.le_add_right _ _)
      (Nat.add_lt_add_left (partRank_lt q) _)]
    by_cases hq : q = .paths .outputs
    · rw [if_pos hq, if_pos ⟨by rw [hq], (hopen q).known⟩]
      rfl
    · rw [if_neg hq, if_neg fun same => hq (distinct _ _ same.1).symm]
      rfl
  refine made_insertBuild adds ruleName distinct (fun _ => Nat.le_add_right _ _)
    (fun q => (hopen q).append _ _) (fun slot => ?_) ?_
  · rw [Paths, items, Slots.get_set, Slots.get_ofFn]
    by_cases hslot : slot = .outputs
    · simp [hslot]
    · simp [hslot]
  · rw [Lines, items]
    rfl

end Builds

/-! ## Moving to another ownership -/

section Adoption

variable {s₀ s : Store} {n : Node} {st : Statement}

/-- A list gives way to itself or to a new one with the same items. -/
private theorem returns_listAdopt {id : ListId} (hopen : s.Open id) (bare : s.Bare (.list id))
    (ownership : Ownership) :
    Returns (id.adopt (.ownership ownership)) s fun id' s' =>
      s.Adds s' ∧ s'.Open id' ∧ (s'.list id').items = (s.list id).items ∧
        (id' = id ∨ s.lists.size ≤ id'.index) := by
  rw [ListId.adopt]
  refine returns_bind (returns_of_alone (alone_read _ _) ?_)
  split
  · exact returns_pure ⟨.refl s, hopen, rfl, .inl rfl⟩
  · refine returns_bind (returns_of_alone (ListId.alone_snapshot hopen) ?_)
    refine returns_bind (returns_of_alone (alone_read _ _) ?_)
    refine returns_bind (returns_of_alone (alone_ofExcept _ _) ?_)
    have blocking : s.listBlocking id = .bool (s.list id).blocking := by
      rw [listBlocking, bare]
      rfl
    rw [blocking]
    refine returns_of_alone (alone_update _ _) ?_
    refine ⟨adds_insertList _ _, open_insertList _ _ _ _, ?_, .inr (Nat.le_refl _)⟩
    let made := GuardedList.make ownership (s.list id).blocking (s.list id).items
    change ((s.insertList made).2.list ⟨s.lists.size⟩).items = (s.list id).items
    rw [list_insertList, if_pos rfl]
    rfl

private theorem adds_setPart (hadds : s₀.Adds s) (new : ¬ s₀.HasNode n) (q : Part) (l : ListId) :
    s₀.Adds (s.setPart n q l) := by
  cases n with
  | rule r =>
      refine { hadds with rules := ?_, rule := fun j hj => ?_ }
      · exact Nat.le_trans hadds.rules (Nat.le_of_eq (Table.size_modify _ _ _).symm)
      · refine ((Table.get_modify _ _ _ _).trans (if_neg ?_)).trans (hadds.rule j hj)
        rintro ⟨heq, -⟩
        exact new (show r.index < s₀.rules.size from heq ▸ hj)
  | build b =>
      have changed (f : BuildRecord → BuildRecord) : s₀.Adds (s.modifyBuild b f) := by
        refine { hadds with builds := ?_, build := fun j hj => ?_ }
        · exact Nat.le_trans hadds.builds (Nat.le_of_eq (Table.size_modify _ _ _).symm)
        · refine ((Table.get_modify _ _ _ _).trans (if_neg ?_)).trans (hadds.build j hj)
          rintro ⟨heq, -⟩
          exact new (show b.index < s₀.builds.size from heq ▸ hj)
      cases q <;> exact changed _
  | pool p =>
      refine { hadds with pools := ?_, pool := fun j hj => ?_ }
      · exact Nat.le_trans hadds.pools (Nat.le_of_eq (Table.size_modify _ _ _).symm)
      · refine ((Table.get_modify _ _ _ _).trans (if_neg ?_)).trans (hadds.pool j hj)
        rintro ⟨heq, -⟩
        exact new (show p.index < s₀.pools.size from heq ▸ hj)

namespace Made

theorem bare (h : Made s₀ n st s) (fresh : s₀.Fresh) : s.Bare n.identity :=
  h.adds.bare (fresh _ fun known => h.new ((knows_identity s₀ n).mp known))

theorem bare_part (h : Made s₀ n st s) (fresh : s₀.Fresh) {q : Part} (hq : q ∈ n.parts) :
    s.Bare (.list (s.part n q)) :=
  h.adds.bare (fresh _ (Nat.not_lt.mpr (h.late q hq)))

theorem adoptPart (h : Made s₀ n st s) (fresh : s₀.Fresh) {q : Part}
    (hq : q ∈ n.parts) (ownership : Ownership) :
    Returns (n.adoptPart (.ownership ownership) q) s fun _ => Made s₀ n st := by
  have value : s.partValue n q = .object (.list (s.part n q)) := by
    rw [partValue, h.bare fresh]
    rfl
  rw [adoptPart_eq]
  refine returns_bind (returns_of_alone (alone_read _ _) ?_)
  simp only [value]
  refine returns_then (returns_listAdopt (h.opens q hq) (h.bare_part fresh hq) ownership) fun l s' hl => ?_
  obtain ⟨hadds, hopen, items, place⟩ := hl
  refine returns_of_alone (alone_modify _ _) ?_
  rw [putPart_eq (hadds.bare (h.bare fresh))]
  have has := hadds.hasNode h.has
  have part {q' : Part} (hq' : q' ∈ n.parts) :
      (s'.setPart n q l).part n q' = if q' = q then l else s.part n q' := by
    rw [part_setPart has hq hq', hadds.part h.has]
  refine ⟨adds_setPart (h.adds.trans hadds) h.new q l, h.new, (hasNode_setPart ..).mpr has, ?_, ?_,
    ?_, ?_⟩
  · refine h.reads.congr ((fields_setPart s' n q l n).trans (hadds.fields h.has)) fun q' hq' => ?_
    rw [part hq', list_setPart]
    split
    · next heq => rw [items, heq]
    · rw [hadds.list _ (h.opens q' hq').known]
  · intro q₁ hq₁ q₂ hq₂ heq
    rw [part hq₁, part hq₂] at heq
    -- A list that is new is none of the other parts.
    have other {q' : Part} (hq' : q' ∈ n.parts) (hne : q' ≠ q) : l ≠ s.part n q' := by
      rintro rfl
      rcases place with hsame | hlate
      · exact hne (h.distinct q' hq' q hq hsame)
      · exact absurd (h.opens q' hq').known (Nat.not_lt.mpr hlate)
    by_cases h₁ : q₁ = q <;> by_cases h₂ : q₂ = q
    · rw [h₁, h₂]
    · rw [if_pos h₁, if_neg h₂] at heq
      exact absurd heq (other hq₂ h₂)
    · rw [if_neg h₁, if_pos h₂] at heq
      exact absurd heq.symm (other hq₁ h₁)
    · rw [if_neg h₁, if_neg h₂] at heq
      exact h.distinct q₁ hq₁ q₂ hq₂ heq
  · intro q' hq'
    rw [part hq']
    split
    · rcases place with hsame | hlate
      · rw [hsame]
        exact h.late q hq
      · exact Nat.le_trans h.adds.lists hlate
    · exact h.late q' hq'
  · intro q' hq'
    rw [part hq']
    have moved {j : ListId} (hj : s'.Open j) : (s'.setPart n q l).Open j :=
      ⟨by rw [lists_setPart]; exact hj.known, by rw [list_setPart]; exact hj.free⟩
    split
    · exact moved hopen
    · exact moved (hadds.open_ (h.opens q' hq'))

/-- A new node is as new after it has been moved to another ownership. -/
theorem adopt (h : Made s₀ n st s) (fresh : s₀.Fresh) (ownership : Ownership) :
    Returns (n.adopt (.ownership ownership)) s fun _ => Made s₀ n st := by
  have each : ∀ parts ⊆ n.parts, ∀ s, Made s₀ n st s →
      Returns (n.adoptParts (.ownership ownership) parts) s fun _ => Made s₀ n st := by
    intro parts
    induction parts with
    | nil => exact fun _ s h => returns_pure h
    | cons q rest ih =>
        intro hsub s h
        rw [List.cons_subset] at hsub
        exact returns_then (h.adoptPart fresh hsub.1 ownership) fun _ s h => ih hsub.2 s h
  exact each n.parts (List.Subset.refl _) s h

end Made

end Adoption

end NinjaFile
