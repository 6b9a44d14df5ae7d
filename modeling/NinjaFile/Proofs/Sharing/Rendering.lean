import NinjaFile.Proofs.Sharing.Inserting

/-!
# Rendering among others

A document is rendered list by list, while others go on.  Every list that is read is the
arena or belongs to a statement in it, so it is shared.
-/

namespace NinjaFile.Sharing

open Store Program

section

variable {c : Setting} {held : List (LockId × Mode)} {J : Assertion} {n : Node} {v : Value}

/-- A value that is a list of a statement in the document. -/
def SharedList (c : Setting) (w : Value) (s : Store) : Prop :=
  ∃ l, w = .object (.list l) ∧ s.Shares l ∧ l ≠ c.arena.statements

theorem durable_sharedList (w : Value) : Durable (SharedList c w) :=
  fun _ _ ⟨l, heq, shares, ne⟩ hgrows => ⟨l, heq, hgrows.shares shares, ne⟩

/-! ## Looking at a statement -/

theorem does_partMember (firm : Firm c J) (listed : ∀ trail s, J trail s → s.Listed n.toValue)
    {q : Part} (hq : q ∈ n.parts) :
    Does c held J (n.toValue.member q.name) fun w trail s => J trail s ∧ SharedList c w s := by
  have stored : n.toValue.member q.name = n.toValue.storedMember q.name := by cases n <;> rfl
  rw [stored]
  refine does_storedMember firm fun trail s w h hsafe hw => ⟨h, s.part n q, ?_, ?_⟩
  · exact Option.some.inj (hw.symm.trans (field_part s hq))
  · have shown : ∀ v, s.Listed v → v = n.toValue → s.HasNode n ∧ s.Shares (s.part n q) := by
      intro v hv heq
      cases hv with
      | @node m has shares =>
          obtain rfl : m = n := by
            have : m.toValue.node? = n.toValue.node? := by rw [heq]
            simpa [Node.toValue, Value.node?] using this
          exact ⟨has, shares q hq⟩
      | @fixed o frozen =>
          cases heq
          cases n <;> cases frozen
    obtain ⟨has, shares⟩ := shown _ (listed _ _ h) rfl
    exact ⟨shares, (hsafe.parts n has q hq).2⟩

theorem does_iterateShared (firm : Firm c J) (w : Value) :
    Does c [] (fun trail s => J trail s ∧ SharedList c w s) w.iterate
      fun items trail s => J trail s ∧ ∀ v ∈ items, v.isLine := by
  have firm' := firm.and (durable_sharedList (c := c) w).firm
  refine does_fact (∃ l, w = .object (.list l) ∧ l ≠ c.arena.statements)
    (fun _ _ ⟨_, l, heq, _, ne⟩ => ⟨l, heq, ne⟩) ?_
  rintro ⟨l, rfl, ne⟩
  refine does_snapshot firm' (fun _ s ⟨_, j, heq, shares, _⟩ _ => .inl ?_) fun trail s h hsafe =>
    ⟨h.1, hsafe.lines l ne⟩
  cases heq
  exact shares

theorem does_spreadShared (firm : Firm c J) (w : Value) :
    Does c [] (fun trail s => J trail s ∧ SharedList c w s) w.spread
      fun items trail s => J trail s ∧ ∀ v ∈ items, v.isLine := by
  refine does_fact (∃ l, w = .object (.list l)) (fun _ _ ⟨_, l, heq, _⟩ => ⟨l, heq⟩) ?_
  rintro ⟨l, rfl⟩
  exact does_iterateShared firm _

/-! ## Printing -/

variable (p : Printer)

theorem does_sayText (firm : Firm c J) {name : String} (v : Value)
    (text : ∀ s w, v.field? s name = some w → ∃ t, w = .text t)
    (stored : v.member name = v.storedMember name) :
    Does c held J (p.sayMember v name) fun _ => J := by
  rw [Printer.sayMember, stored]
  refine does_bind (R := fun w trail s => J trail s ∧ ∃ t, w = .text t) ?_ fun w => ?_
  · exact does_storedMember firm fun trail s w h _ hw => ⟨h, text s w hw⟩
  · refine does_pull ?_
    rintro ⟨t, rfl⟩
    exact does_pure fun _ _ h => h

theorem does_blockLine (firm : Firm c J) (line : v.isLine) :
    Does c held J (p.blockLine v) fun _ => J := by
  refine does_bind (does_read (Q := fun _ => J) firm fun _ _ h _ => h) fun found => ?_
  split
  · exact does_fail rfl
  · cases v with
    | text s => exact does_fail rfl
    | object o => cases o <;> first | exact does_pure fun _ _ h => h | cases line
    | _ => cases line

theorem does_blockLines (firm : Firm c J) {items : List Value} (lines : ∀ v ∈ items, v.isLine) :
    Does c held J (p.blockLines items) fun _ => J := by
  induction items with
  | nil => exact does_pure fun _ _ h => h
  | cons v rest ih =>
      rw [List.forall_mem_cons] at lines
      refine does_bind (does_blockLine p firm lines.1) fun _ => ?_
      exact does_bind (ih lines.2) fun _ => does_pure fun _ _ h => h

theorem does_block (firm : Firm c J) (listed : ∀ trail s, J trail s → s.Listed n.toValue) :
    Does c [] J (p.block n.toValue) fun _ => J := by
  refine does_bind (does_partMember firm listed (bindings_mem_parts n)) fun w => ?_
  refine does_bind (does_iterateShared firm w) fun items => ?_
  exact does_pull fun lines => does_blockLines p firm lines

/-! ## Statements -/

theorem does_ruleOf (firm : Firm c J) (r : RuleId)
    (listed : ∀ trail s, J trail s → s.Listed (Node.rule r).toValue) :
    Does c [] J (p.ruleOf (Node.rule r).toValue) fun _ => J := by
  refine does_bind (does_sayText p firm _ (fun _ _ h => field_name h) rfl) fun name => ?_
  exact does_bind (does_block p firm listed) fun _ => does_pure fun _ _ h => h

theorem does_poolOf (firm : Firm c J) (i : PoolId)
    (listed : ∀ trail s, J trail s → s.Listed (Node.pool i).toValue) :
    Does c [] J (p.poolOf (Node.pool i).toValue) fun _ => J := by
  refine does_bind (R := fun w trail s => J trail s ∧ ∃ b, w = .bool b) ?_ fun w => ?_
  · exact does_storedMember firm fun trail s w h _ hw => ⟨h, _, (Option.some.inj hw).symm⟩
  refine does_pull ?_
  rintro ⟨b, rfl⟩
  refine does_bind (R := fun _ => J) (does_pure fun _ _ h => h) fun builtIn => ?_
  split
  · exact does_pure fun _ _ h => h
  · refine does_bind (does_sayText p firm _ (fun _ _ h => field_name h) rfl) fun name => ?_
    exact does_bind (does_block p firm listed) fun _ => does_pure fun _ _ h => h

theorem does_edgeOf (firm : Firm c J) (b : BuildId)
    (listed : ∀ trail s, J trail s → s.Listed (Node.build b).toValue) :
    Does c [] J (p.edgeOf (Node.build b).toValue) fun _ => J := by
  have iterated (slot : Slot) {α : Type} {k : List Value → Action α} {Q : α → Assertion}
      (hk : ∀ items, Does c [] J (k items) Q) :
      Does c [] J ((Node.build b).toValue.member slot.fieldName >>= fun w => w.iterate >>= k) Q := by
    refine does_bind (does_partMember (q := .paths slot) firm listed (paths_mem_parts b slot)) fun w => ?_
    exact does_bind (does_iterateShared firm w) fun items => does_mono (hk items) (fun _ _ h => h.1)
      fun _ _ _ h => h
  have spread (slot : Slot) {α : Type} {k : List Value → Action α} {Q : α → Assertion}
      (hk : ∀ items, Does c [] J (k items) Q) :
      Does c [] J ((Node.build b).toValue.member slot.fieldName >>= fun w => w.spread >>= k) Q := by
    refine does_bind (does_partMember (q := .paths slot) firm listed (paths_mem_parts b slot)) fun w => ?_
    exact does_bind (does_spreadShared firm w) fun items => does_mono (hk items) (fun _ _ h => h.1)
      fun _ _ _ h => h
  refine spread .outputs fun outputs => iterated .implicitOutputs fun implicitOutputs => ?_
  refine does_bind (R := fun _ => J) (does_storedMember firm fun _ _ _ h _ _ => h) fun ruleName => ?_
  refine spread .inputs fun inputs => iterated .implicitInputs fun implicitInputs => ?_
  refine iterated .orderOnlyInputs fun orderOnlyInputs => ?_
  refine iterated .validations fun validations => ?_
  refine does_bind (R := fun _ => J) (does_ofExcept (fun _ _ _ _ h => h)
    fun _ h _ _ _ => Value.granted_paths _ _ _ h) fun paths => ?_
  exact does_bind (does_block p firm listed) fun _ => does_pure fun _ _ h => h

private theorem does_fixedOf (firm : Firm c J) {o : Object} (frozen : o.isFrozen) {k : Kind}
    (kind : o.kind? = some k) : Does c [] J (p.statementOf k (.object o)) fun _ => J := by
  have said {name t : String} (text : ∀ s, (Value.object o).field? s name = some (.text t))
      (stored : (Value.object o).member name = (Value.object o).storedMember name)
      (f : String → Statement) :
      Does c [] J (do return f (← p.sayMember (.object o) name)) fun _ => J :=
    does_bind (does_sayText p firm _ (fun s w h => ⟨t, Option.some.inj (h.symm.trans (text s))⟩)
      stored) fun _ => does_pure fun _ _ h => h
  cases o with
  | comment n t =>
      cases kind
      exact said (fun _ => rfl) rfl _
  | binding n b =>
      cases kind
      exact does_bind (does_blockLine p firm rfl) fun _ => does_pure fun _ _ h => h
  | subninja n t =>
      cases kind
      exact said (fun _ => rfl) rfl _
  | inclusion n t =>
      cases kind
      exact said (fun _ => rfl) rfl _
  | defaults n outputs =>
      cases kind
      refine does_bind (R := fun w trail s => J trail s ∧ w = .tuple (outputs.map .text)) ?_ fun w => ?_
      · exact does_storedMember firm fun _ _ w h _ hw => ⟨h, (Option.some.inj hw).symm⟩
      refine does_pull ?_
      rintro rfl
      refine does_bind (R := fun _ => J) (does_pure fun _ _ h => h) fun items => ?_
      refine does_bind (R := fun _ => J) (does_ofExcept (fun _ _ _ _ h => h) ?_) fun _ =>
        does_pure fun _ _ h => h
      intro fault h _ _ _
      rw [Value.checkWords] at h
      split at h <;> cases h
      rfl
  | _ => cases frozen

theorem does_kindOf (firm : Firm c J) (listed : ∀ trail s, J trail s → s.Listed v) :
    Does c held J v.kindOf fun w trail s => J trail s ∧
      ∃ o k, v = .object o ∧ o.kind? = some k ∧ w = .kind k := by
  rw [kindOf_eq]
  refine does_storedMember firm fun trail s w h _ hw => ⟨h, ?_⟩
  obtain ⟨o, k, rfl, kind, hk⟩ := field_kind (listed _ _ h)
  exact ⟨o, k, rfl, kind, Option.some.inj (hw.symm.trans hk)⟩

theorem does_statementOf (firm : Firm c J) (listed : ∀ trail s, J trail s → s.Listed v) :
    Does c [] J (p.statement v) fun _ => J := by
  refine does_bind (does_kindOf firm listed) fun w => does_pull ?_
  rintro ⟨o, k, rfl, kind, rfl⟩
  have fixed (frozen : o.isFrozen) := does_fixedOf p firm frozen kind
  cases o with
  | rule r =>
      cases kind
      exact does_ruleOf p firm r listed
  | build b =>
      cases kind
      exact does_edgeOf p firm b listed
  | pool i =>
      cases kind
      exact does_poolOf p firm i listed
  | comment | binding | defaults | subninja | inclusion => exact fixed rfl
  | _ => cases kind

theorem does_statements (firm : Firm c J) {items : List Value}
    (listed : ∀ trail s, J trail s → ∀ v ∈ items, s.Listed v) :
    Does c [] J (p.statements items) fun _ => J := by
  induction items with
  | nil => exact does_pure fun _ _ h => h
  | cons v rest ih =>
      have first (trail : List (Store × Store)) (s : Store) (h : J trail s) : s.Listed v :=
        (List.forall_mem_cons.mp (listed trail s h)).1
      refine does_bind (does_kindOf firm first) fun w => does_pull ?_
      rintro ⟨o, k, rfl, -, rfl⟩
      refine does_bind (R := fun _ => J) (does_storedMember firm fun _ _ _ h _ _ => h) fun _ => ?_
      refine does_bind (does_statementOf p firm first) fun _ => ?_
      refine does_bind (ih fun trail s h => ?_) fun _ => does_pure fun _ _ h => h
      exact (List.forall_mem_cons.mp (listed trail s h)).2

/-! ## Documents -/

theorem does_documentStatements (firm : Firm c J) :
    Does c held J ((Value.object (.document c.document)).member "statements") fun place trail s =>
      J trail s ∧ place = .object (.arena c.arena) := by
  refine does_storedMember firm fun trail s w h hsafe hw => ⟨h, ?_⟩
  have hw : some (Value.object (.arena (s.document c.document).arena)) = some w := hw
  rw [hsafe.arena] at hw
  exact (Option.some.inj hw).symm

theorem does_documentText (firm : Firm c J) :
    Does c [] J (p.documentText c.document) fun _ => J := by
  refine does_bind (does_documentStatements firm) fun place => does_pull ?_
  rintro rfl
  refine does_bind (R := fun items trail s => J trail s ∧ ∀ v ∈ items, s.Listed v) ?_ fun items => ?_
  · exact does_snapshot firm (fun _ _ _ hsafe => .inl hsafe.place) fun _ _ h hsafe =>
      ⟨h, hsafe.listed⟩
  have durable : Durable fun s => ∀ v ∈ items, s.Listed v :=
    fun s s' h hgrows v hv => hgrows.listed v (h v hv)
  refine does_bind (does_statements p (firm.and durable.firm) fun _ _ h => h.2) fun file => ?_
  refine does_bind (R := fun _ => J) ?_ fun _ => does_pure fun _ _ h => h
  rw [Printer.sayMark]
  split <;> exact does_pure fun _ _ h => h.1

theorem does_render (firm : Firm c J) : Does c [] J c.document.render fun _ => J :=
  does_documentText (.deep (nestingLimit - 1)) firm

end

end NinjaFile.Sharing
