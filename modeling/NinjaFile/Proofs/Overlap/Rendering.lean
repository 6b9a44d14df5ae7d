import NinjaFile.Proofs.Frame.Rendering
import NinjaFile.Proofs.Frame.Terms
import NinjaFile.Proofs.Overlap.Changes
import NinjaFile.Proofs.Program.Interleaving
import NinjaFile.Proofs.Sharing.Inserting

/-!
# Rendering while others append and attach

A document is rendered list by list, and each list is read once.  While others go on, what is
read of a statement is what each of its lists holds at some time, and the times need not be the
same.  The lists of the statements are shared, so that none of them is replaced between the
time when it is looked up and the time when it is read.
-/

namespace NinjaFile

open Store Program
open Housing (Assertion)

/-! ## What is seen of lists -/

/-- A node with a name says a statement, where this is what is seen of its lists. -/
def Node.Shows (n : Node) (fields : String × Bool) (seen : Part → List Value) (st : Statement) :
    Prop :=
  match n, st with
  | .rule _, .rule name block =>
      fields = (name, false) ∧ (seen .bindings).map Value.line? = block.map some
  | .pool _, .pool name block builtIn =>
      fields = (name, builtIn) ∧ (seen .bindings).map Value.line? = block.map some
  | .build _, .build edge =>
      fields = (edge.ruleName, false) ∧
        (∀ slot, seen (.paths slot) = (edge.paths.get slot).map .text) ∧
        (seen .bindings).map Value.line? = edge.block.map some
  | _, _ => False

namespace Store

/-- A value says a statement, where this is what is seen of its lists. -/
def ReadsAs (s : Store) (seen : Part → List Value) (v : Value) (st : Statement) : Prop :=
  match v.node? with
  | some n => n.Shows (s.fields n) seen st
  | none => s.Reads v st

theorem readsAs_node (s : Store) (seen : Part → List Value) (n : Node) (st : Statement) :
    s.ReadsAs seen n.toValue st ↔ n.Shows (s.fields n) seen st := by
  cases n <;> exact Iff.rfl

/-- At one time a value says what all its lists hold then. -/
theorem reads_iff_readsAs {s : Store} {v : Value} {st : Statement} {seen : Part → List Value}
    (holds : ∀ n, v.node? = some n → ∀ q ∈ n.parts, seen q = s.held (.part n q)) :
    s.Reads v st ↔ s.ReadsAs seen v st := by
  rw [ReadsAs]
  split
  · next n node =>
      obtain rfl := Value.eq_toValue node
      have holds := holds n (Object.node?_ofNode n)
      have bindings := holds .bindings (bindings_mem_parts n)
      rw [reads_node]
      cases n with
      | rule | pool =>
          cases st <;> simp only [Node.Shows, NodeReads, bindings]
          rfl
      | build b =>
          have paths (slot : Slot) := holds (.paths slot) (paths_mem_parts b slot)
          cases st <;> simp only [Node.Shows, NodeReads, bindings, paths]
          rfl
  · exact Iff.rfl

end Store

namespace Overlap

variable {α β : Type}

/-- A look at a document: which statements are kept, and which document it is. -/
structure Viewing where
  kept : Node → Prop
  document : DocumentId

/-- All statements of the document are kept, and their lists are shared. -/
structure Viewing.Clear (c : Viewing) (s : Store) : Prop where
  housed : s.Housed
  has : s.HasDocument c.document
  kept : ∀ n : Node, n.toValue ∈ s.held (.statements c.document) → c.kept n ∧ s.Settled n

theorem Viewing.Clear.alike {c : Viewing} {s s' : Store} (h : c.Clear s) (like : s.Alike s') :
    c.Clear s' where
  housed := like.housed h.housed
  has := (like.hasDocument _).mpr h.has
  kept n hn := by
    rw [like.held] at hn
    obtain ⟨kept, settled⟩ := h.kept n hn
    refine ⟨kept, fun q hq => ?_⟩
    rw [like.shares, like.part]
    exact settled q hq

/-- Whoever looks changes nothing, while others take nothing from what is kept. -/
def Viewing.terms (c : Viewing) : Terms Store where
  inv := c.Clear
  rely _ := Gentle c.kept
  keeps _ s s' := s' = s
  enters _ _ _ _ := True
  refuses := True

theorem Viewing.steady (c : Viewing) : c.terms.Steady where
  refl _ s _ := .refl s
  trans _ _ _ _ h h' := h.trans h'
  inv_setGuard s lock g h := h.alike (.setGuard s lock g)
  rely_setGuard _ s lock g _ := .of_alike (.setGuard s lock g)

variable {c : Viewing} {J K : Assertion} {Q R : α → Assertion}

/-- The assertion outlasts what others do, and what is looked at. -/
structure Firm (c : Viewing) (J : Assertion) : Prop where
  later : ∀ trail s s', c.Clear s → Gentle c.kept s s' → J trail s → J trail s'
  note : ∀ trail s step, J trail s → J (trail ++ [step]) s

theorem Firm.and (hJ : Firm c J) (hK : Firm c K) : Firm c fun trail s => J trail s ∧ K trail s :=
  ⟨fun _ _ _ clear gentle h => ⟨hJ.later _ _ _ clear gentle h.1, hK.later _ _ _ clear gentle h.2⟩,
    fun _ _ _ h => ⟨hJ.note _ _ _ h.1, hK.note _ _ _ h.2⟩⟩

theorem firm_true : Firm c fun _ _ => True := ⟨fun _ _ _ _ _ _ => trivial, fun _ _ _ _ => trivial⟩

/-- From an assertion the program gives what another one says, unless it is refused a guard. -/
def Tells (c : Viewing) (J : Assertion) (p : Action α) (Q : α → Assertion) : Prop :=
  ∀ g s, c.Clear s → J g.trail s → p.wp c.terms (fun r g s => match r with
    | .ok x => c.Clear s ∧ Q x g.trail s
    | .error fault => fault.isBorrow = true) g s

theorem Tells.pre {p : Action α} (h : Tells c J p Q) (pre : ∀ trail s, K trail s → J trail s) :
    Tells c K p Q :=
  fun g s clear hK => h g s clear (pre _ _ hK)

theorem Tells.post {p : Action α} (h : Tells c J p Q)
    (post : ∀ x trail s, c.Clear s → Q x trail s → R x trail s) : Tells c J p R := by
  refine fun g s clear hJ => wp_mono (fun r g s hr => ?_) (h g s clear hJ)
  cases r with
  | ok x => exact ⟨hr.1, post x _ _ hr.1 hr.2⟩
  | error fault => exact hr

theorem tells_pure {x : α} (h : ∀ trail s, c.Clear s → J trail s → Q x trail s) :
    Tells c J (Pure.pure x) Q :=
  fun _ _ clear hJ => ⟨clear, h _ _ clear hJ⟩

theorem tells_bind {Q : β → Assertion} {p : Action α} {k : α → Action β} (hp : Tells c J p R)
    (hk : ∀ x, Tells c (R x) (k x) Q) : Tells c J (p >>= k) Q := by
  intro g s clear hJ
  rw [wp_bind]
  refine wp_mono (fun r g s hr => ?_) (hp g s clear hJ)
  cases r with
  | ok x => exact hk x g s hr.1 hr.2
  | error fault => exact hr

theorem tells_pull {p : Action α} {fact : Prop} (h : fact → Tells c J p Q) :
    Tells c (fun trail s => J trail s ∧ fact) p Q :=
  fun g s clear hJ => h hJ.2 g s clear hJ.1

theorem tells_fact {p : Action α} (fact : Prop) (always : ∀ trail s, J trail s → fact)
    (h : fact → Tells c J p Q) : Tells c J p Q :=
  fun g s clear hJ => h (always _ _ hJ) g s clear hJ

theorem tells_ofExcept {x : α} {r : Except Fault α} (ok : r = .ok x)
    (h : ∀ trail s, c.Clear s → J trail s → Q x trail s) : Tells c J (ofExcept r) Q := by
  subst ok
  exact tells_pure h

theorem tells_read {f : Store → α} (firm : Firm c J)
    (h : ∀ trail s, c.Clear s → J (trail ++ [(s, s)]) s → Q (f s) (trail ++ [(s, s)]) s) :
    Tells c J (Action.read f) Q := by
  intro g s clear hJ
  rw [wp_read]
  intro s' gentle clear'
  have hJ' := firm.note _ _ (s', s') (firm.later _ _ _ clear gentle hJ)
  exact ⟨rfl, clear', clear', h _ _ clear' hJ'⟩

theorem tells_guarded {lock : LockId} {mode : Mode} {body : Action α} (firm : Firm c J)
    (hbody : Tells c J body Q) : Tells c J (.guarded lock mode body) Q := by
  intro g s clear hJ
  rw [wp_guarded]
  refine fun s' gentle clear' => ⟨trivial, ?_, fun _ _ => rfl⟩
  exact hbody (g.enter lock mode) s' clear' (firm.later _ _ _ clear gentle hJ)

theorem tells_storedMember {Q : Value → Assertion} (firm : Firm c J) {v : Value} {name : String}
    (h : ∀ trail s, c.Clear s → J (trail ++ [(s, s)]) s →
      ∃ w, v.field? s name = some w ∧ Q w (trail ++ [(s, s)]) s) :
    Tells c J (v.storedMember name) Q := by
  refine tells_bind (tells_read (Q := fun found trail s => ∃ w, found = some w ∧ Q w trail s) firm
    fun trail s clear hJ => ?_) fun found => ?_
  · rw [Value.stored?_of_unassigned clear.housed.unassigned]
    exact h trail s clear hJ
  · cases found with
    | none => exact fun _ _ _ ⟨_, heq, _⟩ => nomatch heq
    | some w =>
        refine tells_pure fun _ _ _ hQ => ?_
        obtain ⟨_, heq, hQ⟩ := hQ
        exact Option.some.inj heq ▸ hQ

/-! ## Lists -/

/-- At a time of which the trail knows this is what was held. -/
def Glimpsed (trail : List (Store × Store)) (x : Place) (items : List Value) : Prop :=
  ∃ step ∈ trail, step.1.HasPlace x ∧ step.1.held x = items

theorem Glimpsed.mono {trail : List (Store × Store)} {x : Place} {items : List Value}
    (h : Glimpsed trail x items) (step : Store × Store) : Glimpsed (trail ++ [step]) x items := by
  obtain ⟨step, hstep, same⟩ := h
  exact ⟨step, List.mem_append_left _ hstep, same⟩

/-- The value is in the document. -/
def Stands (c : Viewing) (v : Value) : Assertion := fun _ s => v ∈ s.held (.statements c.document)

theorem firm_stands (v : Value) : Firm c (Stands c v) where
  later _ _ _ clear gentle h := (gentle.statements clear.has).subset h
  note _ _ _ h := h

/-- What was read of a part: all that it held at some time. -/
def Seen (n : Node) (q : Part) (items : List Value) : Assertion := fun trail _ =>
  Glimpsed trail (.part n q) items ∧ ∀ v ∈ items, q.admits v

theorem firm_seen (n : Node) (q : Part) (items : List Value) : Firm c (Seen n q items) where
  later _ _ _ _ _ h := h
  note _ _ step h := ⟨h.1.mono step, h.2⟩

section

variable {n : Node} {q : Part} (firm : Firm c J)
  (stands : ∀ trail s, J trail s → Stands c n.toValue trail s) (hq : q ∈ n.parts)

include firm stands hq

/-- Nobody replaces the list of a part after it was looked up. -/
theorem tells_partMember : Tells c J (n.toValue.member q.name) fun w trail s =>
    (J trail s ∧ ∃ l, s.part n q = l ∧ w = .object (.list l)) := by
  have stored : n.toValue.member q.name = n.toValue.storedMember q.name := by cases n <;> rfl
  rw [stored]
  exact tells_storedMember firm fun _ s _ hJ => ⟨_, field_part s hq, hJ, _, rfl, rfl⟩

theorem tells_snapshot (l : ListId) :
    Tells c (fun trail s => J trail s ∧ s.part n q = l) l.snapshot fun items trail s =>
      J trail s ∧ Seen n q items trail s := by
  have has (trail : List (Store × Store)) (s : Store) (clear : c.Clear s) (hJ : J trail s) : s.HasNode n :=
    clear.housed.hasNode_of_mem clear.has (stands _ _ hJ)
  have lasting : Firm c fun trail s => J trail s ∧ s.part n q = l := by
    refine ⟨fun trail s s' clear gentle h => ?_, fun trail s step h => ⟨firm.note _ _ _ h.1, h.2⟩⟩
    obtain ⟨kept, settled⟩ := clear.kept n (stands _ _ h.1)
    refine ⟨firm.later _ _ _ clear gentle h.1, ?_⟩
    rw [gentle.parts n kept (has _ _ clear h.1) settled q hq, h.2]
  refine tells_guarded lasting (tells_read lasting fun trail s clear h => ⟨h.1, ?_, fun v hv => ?_⟩)
  · refine ⟨(s, s), List.mem_append_right _ (List.mem_singleton_self _), ⟨has _ _ clear h.1, hq⟩, ?_⟩
    rw [Store.held, spot, h.2]
  · refine clear.housed.suits (.part n q) ⟨has _ _ clear h.1, hq⟩ v ?_
    rw [Store.held, spot, h.2]
    exact hv

theorem tells_list {f : Value → Action (List Value)}
    (reads : ∀ l, f (.object (.list l)) = l.snapshot) {k : List Value → Action α}
    (hk : ∀ items, Tells c (fun trail s => J trail s ∧ Seen n q items trail s) (k items) Q) :
    Tells c J (n.toValue.member q.name >>= fun w => f w >>= k) Q := by
  refine tells_bind (tells_partMember firm stands hq) fun w => ?_
  refine tells_bind (R := fun items trail s => J trail s ∧ Seen n q items trail s) ?_ hk
  rintro g s clear ⟨hJ, l, same, rfl⟩
  rw [reads]
  exact tells_snapshot firm stands hq l g s clear ⟨hJ, same⟩

end

/-! ## Blocks -/

variable (p : Printer)

theorem tells_blockLine (firm : Firm c J) {n : Serial} {b : Binding} :
    Tells c J (p.blockLine (.object (.binding n b))) fun line trail s =>
      J trail s ∧ line = .binding b := by
  refine tells_bind (R := fun found trail s => J trail s ∧ found = none) ?_ fun found => ?_
  · refine tells_read firm fun _ s clear hJ => ⟨hJ, ?_⟩
    rw [Value.stored?_of_unassigned clear.housed.unassigned]
    rfl
  · refine tells_pull ?_
    rintro rfl
    exact tells_pure fun _ _ _ hJ => ⟨hJ, rfl⟩

theorem tells_blockLines (firm : Firm c J) {items : List Value}
    (admits : ∀ v ∈ items, Part.bindings.admits v) :
    Tells c J (p.blockLines items) fun block trail s =>
      J trail s ∧ items.map Value.line? = block.map some := by
  induction items with
  | nil => exact tells_pure fun _ _ _ hJ => ⟨hJ, rfl⟩
  | cons v rest ih =>
      obtain ⟨first, others⟩ := List.forall_mem_cons.mp admits
      obtain ⟨_ | line, hline⟩ := exists_lines (List.forall_mem_singleton.mpr first)
      · cases hline
      obtain ⟨n, b, rfl, -⟩ := Value.eq_of_line? (List.cons.inj hline).1
      refine tells_bind (tells_blockLine p firm) fun line => tells_pull ?_
      rintro rfl
      refine tells_bind (ih others) fun block => tells_pull fun lines => ?_
      exact tells_pure fun _ _ _ hJ => ⟨hJ, by rw [List.map_cons, lines]; rfl⟩

theorem tells_block {n : Node} (firm : Firm c J)
    (stands : ∀ trail s, J trail s → Stands c n.toValue trail s) :
    Tells c J (p.block n.toValue) fun block trail s => J trail s ∧ ∃ items,
      Seen n .bindings items trail s ∧ items.map Value.line? = block.map some := by
  refine tells_list firm stands (bindings_mem_parts n) (fun _ => rfl) fun items => ?_
  refine tells_fact _ (fun _ _ h => h.2.2) fun admits => ?_
  refine (tells_blockLines p (firm.and (firm_seen n .bindings items)) admits).post ?_
  exact fun _ _ _ _ h => ⟨h.1.1, items, h.1.2, h.2⟩

/-! ## What is told of statements -/

/-- The value is in the document and says a statement, and what its lists are shown to hold
they have held at times of which the trail knows. -/
def Told (c : Viewing) (v : Value) (st : Statement) : Assertion := fun trail s =>
  Stands c v trail s ∧ ∃ seen, s.ReadsAs seen v st ∧
    ∀ n, v.node? = some n → ∀ q ∈ n.parts, Glimpsed trail (.part n q) (seen q)

theorem firm_told (v : Value) (st : Statement) : Firm c (Told c v st) where
  later trail s s' clear gentle := by
    rintro ⟨stands, seen, reads, glimpsed⟩
    refine ⟨(firm_stands v).later trail s s' clear gentle stands, seen, ?_, glimpsed⟩
    rw [ReadsAs] at reads ⊢
    split at reads
    · next n node =>
        obtain rfl := Value.eq_toValue node
        rwa [gentle.fields n (clear.housed.hasNode_of_mem clear.has stands)]
    · next none =>
        cases v with
        | object o => cases o <;> first | exact reads | cases none
        | _ => exact reads
  note trail s step h := by
    obtain ⟨stands, seen, reads, glimpsed⟩ := h
    exact ⟨stands, seen, reads, fun n node q hq => (glimpsed n node q hq).mono step⟩

/-- A statement was read off the value, the name and the block of a built-in pool left aside. -/
def Says (c : Viewing) (v : Value) (st : Statement) : Assertion := fun trail s =>
  ∃ told : Statement, st = told.shown ∧ Told c v told trail s

theorem firm_saying (v : Value) (st : Statement) : Firm c (Says c v st) where
  later _ _ _ clear gentle := fun ⟨told, heq, h⟩ => ⟨told, heq, (firm_told v told).later _ _ _ clear gentle h⟩
  note _ _ step := fun ⟨told, heq, h⟩ => ⟨told, heq, (firm_told v told).note _ _ step h⟩

/-! ## Statements -/

theorem tells_sayMember (firm : Firm c J) {v : Value} {name : String} (text : String)
    (field : ∀ trail s, J trail s → v.field? s name = some (.text text))
    (stored : v.member name = v.storedMember name) :
    Tells c J (p.sayMember v name) fun w trail s => J trail s ∧ w = text := by
  rw [Printer.sayMember, stored]
  refine tells_bind (R := fun w trail s => J trail s ∧ w = .text text) ?_ fun w => tells_pull ?_
  · exact tells_storedMember firm fun _ _ _ hJ => ⟨_, field _ _ hJ, hJ, rfl⟩
  · rintro rfl
    exact tells_pure fun _ _ _ hJ => ⟨hJ, rfl⟩

section

variable {n : Node}

theorem tells_named {p : Action α}
    (h : ∀ fields, Tells c (fun trail s => J trail s ∧ s.fields n = fields) p Q) : Tells c J p Q :=
  fun g s clear hJ => h _ g s clear ⟨hJ, rfl⟩

theorem Firm.named (firm : Firm c J) (stands : ∀ trail s, J trail s → Stands c n.toValue trail s)
    (fields : String × Bool) : Firm c fun trail s => J trail s ∧ s.fields n = fields where
  later _ _ _ clear gentle h := by
    have has := clear.housed.hasNode_of_mem clear.has (stands _ _ h.1)
    exact ⟨firm.later _ _ _ clear gentle h.1, (gentle.fields n has).trans h.2⟩
  note _ _ _ h := ⟨firm.note _ _ _ h.1, h.2⟩

end

theorem tells_header {n : Node} (firm : Firm c J)
    (stands : ∀ trail s, J trail s → Stands c n.toValue trail s) {fields : String × Bool}
    (simple : n.parts = [.bindings]) (stored : n.toValue.member "name" = n.toValue.storedMember "name")
    (name : ∀ s : Store, n.toValue.field? s "name" = some (.text (s.fields n).1))
    {f : String → List BlockLine → Statement} (visible : ∀ block, (f fields.1 block).isHidden = false)
    (shows : ∀ (items : List Value) (block : List BlockLine), items.map Value.line? = block.map some →
      n.Shows fields (fun _ => items) (f fields.1 block)) :
    Tells c (fun trail s => J trail s ∧ s.fields n = fields)
      (p.sayMember n.toValue "name" >>= fun name => p.block n.toValue >>= fun block =>
        Pure.pure (f name block))
      fun st trail s => J trail s ∧ Says c n.toValue st trail s := by
  have firm' := firm.named stands fields
  refine tells_bind (tells_sayMember p firm' fields.1 (fun _ s h => ?_) stored) fun said =>
    tells_pull ?_
  · rw [name s, h.2]
  rintro rfl
  refine tells_bind (tells_block p firm' fun _ _ h => stands _ _ h.1) fun block => ?_
  refine tells_pure fun trail s _ h => ?_
  obtain ⟨⟨hJ, named⟩, items, seen, lines⟩ := h
  refine ⟨hJ, f fields.1 block, (Statement.shown_of_visible (visible block)).symm, stands _ _ hJ,
    fun _ => items, ?_, fun m node q hq => ?_⟩
  · rw [readsAs_node, named]
    exact shows items block lines
  · obtain rfl : n = m := Option.some.inj ((Object.node?_ofNode n).symm.trans node)
    obtain rfl : q = .bindings := by simpa [simple] using hq
    exact seen.1

theorem tells_ruleOf (firm : Firm c J) (r : RuleId)
    (stands : ∀ trail s, J trail s → Stands c (Node.rule r).toValue trail s) :
    Tells c J (p.ruleOf (Node.rule r).toValue) fun st trail s =>
      J trail s ∧ Says c (Node.rule r).toValue st trail s := by
  refine tells_named (n := .rule r) fun fields => ?_
  refine tells_fact (fields.2 = false) (fun _ s h => h.2 ▸ rfl) fun plain => ?_
  exact tells_header p firm stands rfl rfl (fun _ => rfl) (fun _ => rfl) fun _ _ lines =>
    ⟨Prod.ext rfl plain, lines⟩

theorem tells_poolOf (firm : Firm c J) (i : PoolId)
    (stands : ∀ trail s, J trail s → Stands c (Node.pool i).toValue trail s) :
    Tells c J (p.poolOf (Node.pool i).toValue) fun st trail s =>
      J trail s ∧ Says c (Node.pool i).toValue st trail s := by
  refine tells_named (n := .pool i) fun fields => ?_
  have firm' := firm.named stands fields
  -- What a built-in pool says is what it says at the time when it turns out to be one.
  refine tells_bind (R := fun w trail s => ((J trail s ∧ s.fields (.pool i) = fields) ∧
    (fields.2 = true → Says c (Node.pool i).toValue (.pool "" [] true) trail s)) ∧
      w = .bool fields.2) ?_ fun w => tells_pull ?_
  · refine tells_storedMember firm' fun trail s clear h => ⟨_, rfl, ⟨h, fun builtIn => ?_⟩, ?_⟩
    · have stands := stands _ _ h.1
      obtain ⟨st, reads⟩ := clear.housed.reads (clear.housed.suits (.statements _) clear.has _ stands)
      have hidden : Statement.pool "" [] true = st.shown := by
        cases st <;> try exact reads.elim
        next name block flag =>
          have named : s.fields (.pool i) = (name, flag) := reads.1
          rw [h.2] at named
          obtain rfl : flag = true := by rw [← builtIn, named]
          rfl
      have has := clear.housed.hasNode_of_mem clear.has stands
      refine ⟨st, hidden, stands, fun q => s.held (.part (.pool i) q), ?_, fun n node q hq => ?_⟩
      · refine (reads_iff_readsAs fun n node q _ => ?_).mp reads
        obtain rfl : Node.pool i = n := Option.some.inj node
        rfl
      · obtain rfl : Node.pool i = n := Option.some.inj node
        exact ⟨(s, s), List.mem_append_right _ (List.mem_singleton_self _), ⟨has, hq⟩, rfl⟩
    · rw [← h.2]
      rfl
  rintro rfl
  refine tells_bind (R := fun b trail s => ((J trail s ∧ s.fields (.pool i) = fields) ∧
    (fields.2 = true → Says c (Node.pool i).toValue (.pool "" [] true) trail s)) ∧ b = fields.2)
    (tells_pure fun _ _ _ h => ⟨h, rfl⟩) fun b => tells_pull ?_
  rintro rfl
  split
  · next builtIn => exact tells_pure fun _ _ _ h => ⟨h.1.1, h.2 builtIn⟩
  · next declared =>
      refine Tells.pre ?_ fun _ _ h => h.1
      exact tells_header p firm stands rfl rfl (fun _ => rfl) (fun _ => rfl) fun _ _ lines =>
        ⟨Prod.ext rfl (by simpa using declared), lines⟩

/-! ## Builds -/

private theorem exists_texts {lists : Slots (List Value)}
    (admits : ∀ slot, ∀ v ∈ lists.get slot, (Part.paths slot).admits v) :
    ∃ paths : Slots (List String), lists = paths.map fun words => words.map .text := by
  choose words hwords using fun slot => exists_paths (admits slot)
  refine ⟨.ofFn words, Slots.ext_get fun slot => ?_⟩
  rw [hwords, Slots.get_map, Slots.get_ofFn]

/-- What is known of a build when some of its lists have been read. -/
def Reading (J : Assertion) (b : BuildId) (fields : String × Bool)
    (pairs : List (Slot × List Value)) : Assertion := fun trail s =>
  (J trail s ∧ s.fields (.build b) = fields) ∧
    ∀ pair ∈ pairs, Seen (.build b) (.paths pair.1) pair.2 trail s

section

variable {b : BuildId} {fields : String × Bool} {pairs : List (Slot × List Value)} (firm : Firm c J)
  (stands : ∀ trail s, J trail s → Stands c (Node.build b).toValue trail s)

include firm stands

theorem firm_reading : Firm c (Reading J b fields pairs) := by
  refine (firm.named stands fields).and
    ⟨fun _ _ _ clear gentle h pair mem => ?_, fun _ _ step h pair mem => ?_⟩
  · exact (firm_seen ..).later _ _ _ clear gentle (h pair mem)
  · exact (firm_seen (c := c) ..).note _ _ step (h pair mem)

theorem tells_slot (slot : Slot) {f : Value → Action (List Value)}
    (reads : ∀ l, f (.object (.list l)) = l.snapshot) {k : List Value → Action α}
    (hk : ∀ items, Tells c (Reading J b fields ((slot, items) :: pairs)) (k items) Q) :
    Tells c (Reading J b fields pairs)
      ((Node.build b).toValue.member slot.fieldName >>= fun w => f w >>= k) Q := by
  refine tells_list (q := .paths slot) (firm_reading firm stands) (fun _ _ h => stands _ _ h.1.1)
    (paths_mem_parts b slot) reads fun items => (hk items).pre fun trail s h => ⟨h.1.1, ?_⟩
  exact List.forall_mem_cons.mpr ⟨h.2, h.1.2⟩

theorem tells_ruleName {k : Value → Action α}
    (hk : Tells c (Reading J b fields pairs) (k (.text fields.1)) Q) :
    Tells c (Reading J b fields pairs) ((Node.build b).toValue.member "rule_name" >>= k) Q := by
  refine tells_bind (R := fun w trail s => Reading J b fields pairs trail s ∧ w = .text fields.1) ?_
    fun w => tells_pull ?_
  · refine tells_storedMember (firm_reading firm stands) fun _ _ _ h => ⟨_, rfl, h, ?_⟩
    rw [← h.1.2]
    rfl
  · rintro rfl
    exact hk

/-- What each part of a build reads as. -/
def shown (items : List Value) (words : Slots (List String)) : Part → List Value
  | .bindings => items
  | .paths slot => (words.get slot).map .text

theorem tells_edge (plain : fields.2 = false) {lists : Slots (List Value)}
    (all : ∀ slot, (slot, lists.get slot) ∈ pairs) :
    Tells c (Reading J b fields pairs)
      (Program.ofExcept (Value.paths (.text fields.1) lists) >>= fun paths =>
        p.block (Node.build b).toValue >>= fun block => Pure.pure (.build ⟨fields.1, paths, block⟩))
      fun st trail s => J trail s ∧ Says c (Node.build b).toValue st trail s := by
  refine tells_fact (∀ slot, ∀ v ∈ lists.get slot, (Part.paths slot).admits v)
    (fun _ _ h slot => (h.2 _ (all slot)).2) fun admits => ?_
  obtain ⟨paths, rfl⟩ := exists_texts admits
  have firm : Firm c (Reading J b fields pairs) := firm_reading firm stands
  refine tells_bind (R := fun words trail s => Reading J b fields pairs trail s ∧ words = paths)
    (tells_ofExcept (Value.paths_texts _ _) fun _ _ _ h => ⟨h, rfl⟩) fun words => tells_pull ?_
  rintro rfl
  refine tells_bind (tells_block p firm fun _ _ h => stands _ _ h.1.1) fun block => ?_
  refine tells_pure fun trail s _ h => ?_
  obtain ⟨⟨⟨hJ, named⟩, found⟩, items, seen, lines⟩ := h
  refine ⟨hJ, .build ⟨fields.1, words, block⟩, rfl, stands _ _ hJ, shown items words, ?_, ?_⟩
  · exact ⟨named.trans (Prod.ext rfl plain), fun _ => rfl, lines⟩
  · rintro _ ⟨⟩ q -
    cases q with
    | bindings => exact seen.1
    | paths slot =>
        have known := (found _ (all slot)).1
        rwa [Slots.get_map] at known

end

theorem tells_edgeOf (firm : Firm c J) (b : BuildId)
    (stands : ∀ trail s, J trail s → Stands c (Node.build b).toValue trail s) :
    Tells c J (p.edgeOf (Node.build b).toValue) fun st trail s =>
      J trail s ∧ Says c (Node.build b).toValue st trail s := by
  refine tells_named (n := .build b) fun fields => ?_
  refine tells_fact (fields.2 = false) (fun _ s h => h.2 ▸ rfl) fun plain => ?_
  refine Tells.pre (J := Reading J b fields []) ?_ fun _ _ h => ⟨h, fun _ none => nomatch none⟩
  refine tells_slot firm stands .outputs (fun _ => rfl) fun outputs => ?_
  refine tells_slot firm stands .implicitOutputs (fun _ => rfl) fun implicitOutputs => ?_
  refine tells_ruleName firm stands ?_
  refine tells_slot firm stands .inputs (fun _ => rfl) fun inputs => ?_
  refine tells_slot firm stands .implicitInputs (fun _ => rfl) fun implicitInputs => ?_
  refine tells_slot firm stands .orderOnlyInputs (fun _ => rfl) fun orderOnlyInputs => ?_
  refine tells_slot firm stands .validations (fun _ => rfl) fun validations => ?_
  refine tells_edge p firm stands plain fun slot => ?_
  cases slot <;> simp [Slots.get]

/-! ## Documents -/

private theorem tells_fixed {o : Object} {st : Statement} {action : Action Statement}
    (stands : ∀ trail s, J trail s → Stands c (.object o) trail s)
    (plain : o.node? = none) (visible : st.isHidden = false) (reads : ∀ s : Store, s.Reads (.object o) st)
    (h : Tells c J action fun read trail s => J trail s ∧ read = st) :
    Tells c J action fun read trail s => J trail s ∧ Says c (.object o) read trail s := by
  refine h.post fun read trail s _ ⟨hJ, same⟩ => ⟨hJ, st, ?_, stands _ _ hJ, fun _ => [], ?_, ?_⟩
  · rw [same, Statement.shown_of_visible visible]
  · rw [ReadsAs, show (Value.object o).node? = none from plain]
    exact reads s
  · exact fun n node => nomatch plain.symm.trans node

private theorem tells_saidOf (firm : Firm c J) {o : Object} {name text : String}
    (field : ∀ s : Store, (Value.object o).field? s name = some (.text text))
    (stored : (Value.object o).member name = (Value.object o).storedMember name)
    (f : String → Statement) :
    Tells c J (p.sayMember (.object o) name >>= fun said => Pure.pure (f said))
      fun read trail s => J trail s ∧ read = f text := by
  refine tells_bind (tells_sayMember p firm _ (fun _ s _ => field s) stored) fun said => tells_pull ?_
  rintro rfl
  exact tells_pure fun _ _ _ hJ => ⟨hJ, rfl⟩

private theorem tells_defaultsOf (firm : Firm c J) (n : Serial) (outputs : List String) :
    Tells c J (Printer.defaultsOf (.object (.defaults n outputs)))
      fun read trail s => J trail s ∧ read = .defaults outputs := by
  refine tells_bind (R := fun w trail s => J trail s ∧ w = .tuple (outputs.map .text)) ?_
    fun w => tells_pull ?_
  · exact tells_storedMember firm fun _ _ _ hJ => ⟨_, rfl, hJ, rfl⟩
  rintro rfl
  refine tells_bind (R := fun items trail s => J trail s ∧ items = outputs.map .text)
    (tells_pure fun _ _ _ hJ => ⟨hJ, rfl⟩) fun items => tells_pull ?_
  rintro rfl
  have words : Value.checkWords (.text "default" :: outputs.map .text) = .ok () := by
    rw [← List.map_cons, Value.checkWords_texts]
  refine tells_bind (R := fun _ => J) (tells_ofExcept words fun _ _ _ hJ => hJ) fun _ => ?_
  exact tells_pure fun _ _ _ hJ => ⟨hJ, by rw [Value.texts_map_text]⟩

theorem tells_kindOf (firm : Firm c J) {o : Object} {k : Kind} (kind : o.kind? = some k) :
    Tells c J (Value.object o).kindOf fun w trail s => J trail s ∧ w = .kind k := by
  rw [Sharing.kindOf_eq]
  refine tells_storedMember firm fun _ _ _ hJ => ⟨.kind k, ?_, hJ, rfl⟩
  cases o <;> exact congrArg (Option.map Value.kind) kind

variable {v : Value}

theorem tells_object {p : Action α} (stands : ∀ trail s, J trail s → Stands c v trail s)
    (h : ∀ o k, v = .object o → o.kind? = some k → Tells c J p Q) : Tells c J p Q := by
  intro g s clear hJ
  obtain ⟨o, heq, kind, -⟩ := clear.housed.suits (.statements _) clear.has v (stands _ _ hJ)
  obtain ⟨k, kind⟩ := Option.isSome_iff_exists.mp kind
  exact h o k heq kind g s clear hJ

theorem tells_statement (firm : Firm c J) (stands : ∀ trail s, J trail s → Stands c v trail s) :
    Tells c J (p.statement v) fun st trail s => J trail s ∧ Says c v st trail s := by
  refine tells_object stands fun o k heq kind => ?_
  subst heq
  refine tells_bind (tells_kindOf firm kind) fun w => tells_pull ?_
  rintro rfl
  cases o with
  | rule r => cases kind; exact tells_ruleOf p firm r stands
  | build b => cases kind; exact tells_edgeOf p firm b stands
  | pool i => cases kind; exact tells_poolOf p firm i stands
  | comment n text =>
      cases kind
      exact tells_fixed stands rfl rfl (fun _ => rfl) (tells_saidOf p firm (fun _ => rfl) rfl _)
  | binding n b =>
      cases kind
      have line : Tells c J (p.statementOf .binding (.object (.binding n b))) fun read trail s =>
          J trail s ∧ read = .binding (.binding b) := by
        refine tells_bind (tells_blockLine p firm) fun line => tells_pull ?_
        rintro rfl
        exact tells_pure fun _ _ _ hJ => ⟨hJ, rfl⟩
      exact tells_fixed stands rfl rfl (fun _ => rfl) line
  | defaults n outputs =>
      cases kind
      exact tells_fixed stands rfl rfl (fun _ => rfl) (tells_defaultsOf firm n outputs)
  | subninja n path =>
      cases kind
      exact tells_fixed stands rfl rfl (fun _ => rfl) (tells_saidOf p firm (fun _ => rfl) rfl _)
  | inclusion n path =>
      cases kind
      exact tells_fixed stands rfl rfl (fun _ => rfl) (tells_saidOf p firm (fun _ => rfl) rfl _)
  | _ => cases kind

/-- What the values of a document are read as, one after the other. -/
def SaysAll (c : Viewing) (vs : List Value) (xs : List Statement) : Assertion := fun trail s =>
  ∃ told : List Statement, xs = told.map Statement.shown ∧
    List.Forall₂ (fun v st => Told c v st trail s) vs told

theorem tells_statements (firm : Firm c J) {vs : List Value}
    (stands : ∀ trail s, J trail s → ∀ v ∈ vs, Stands c v trail s) :
    Tells c J (p.statements vs) fun xs trail s => J trail s ∧ SaysAll c vs xs trail s := by
  induction vs generalizing J with
  | nil => exact tells_pure fun _ _ _ hJ => ⟨hJ, [], rfl, .nil⟩
  | cons v rest ih =>
      have first (trail : List (Store × Store)) (s : Store) (hJ : J trail s) : Stands c v trail s :=
        stands _ _ hJ v List.mem_cons_self
      refine tells_object first fun o k heq kind => ?_
      subst heq
      refine tells_bind (tells_kindOf firm kind) fun w => tells_pull ?_
      rintro rfl
      refine tells_bind (R := fun _ => J) (tells_storedMember firm fun _ _ _ hJ => ⟨_, rfl, hJ⟩)
        fun _ => ?_
      refine tells_bind (tells_statement p firm first) fun x => ?_
      refine tells_bind (ih (firm.and (firm_saying (.object o) x)) fun trail s h v hv => ?_) fun xs => ?_
      · exact stands trail s h.1 v (List.mem_cons_of_mem _ hv)
      · refine tells_pure fun trail s _ h => ?_
        obtain ⟨⟨hJ, st, rfl, told⟩, others, rfl, each⟩ := h
        exact ⟨hJ, st :: others, rfl, .cons told each⟩

theorem fileText_text (mark : String) (xs : List Statement) :
    p.fileText (.text mark) xs = Pure.pure (Layout.file mark xs) := by
  rw [Printer.fileText, Printer.sayMark]
  split
  · next none =>
      rw [Printer.file_of_blocks_nil (by simpa using none) mark ""]
      rfl
  · rfl

/-- The text is that of the statements that the document held at one time, and what their lists
are shown to hold they have held at times of which the trail knows. -/
def Rendered (c : Viewing) (text : String) : Assertion := fun trail s =>
  ∃ vs xs, Glimpsed trail (.statements c.document) vs ∧
    List.Forall₂ (fun v st => Told c v st trail s) vs xs ∧ text = Layout.file Layout.defaultIndent xs

theorem firm_rendered (text : String) : Firm c (Rendered c text) where
  later _ _ _ clear gentle := by
    rintro ⟨vs, xs, glimpsed, told, same⟩
    exact ⟨vs, xs, glimpsed, told.imp fun v st => (firm_told v st).later _ _ _ clear gentle, same⟩
  note _ _ step := by
    rintro ⟨vs, xs, glimpsed, told, same⟩
    exact ⟨vs, xs, glimpsed.mono step, told.imp fun v st => (firm_told v st).note _ _ step, same⟩

theorem tells_arena : Tells c (fun _ _ => True) ((Value.object (.document c.document)).member "statements")
    fun w _ s => ∃ a, (s.document c.document).arena = a ∧ w = .object (.arena a) :=
  tells_storedMember firm_true fun _ _ _ _ => ⟨_, rfl, _, rfl, rfl⟩

theorem tells_arenaSnapshot (a : Arena) :
    Tells c (fun _ s => (s.document c.document).arena = a) a.statements.snapshot fun items trail s =>
      Glimpsed trail (.statements c.document) items ∧ ∀ v ∈ items, Stands c v trail s := by
  have firm : Firm c fun _ s => (s.document c.document).arena = a := by
    refine ⟨fun _ _ _ clear gentle h => ?_, fun _ _ _ h => h⟩
    rw [(gentle.documents _ clear.has).2, h]
  refine tells_guarded firm (tells_read firm fun trail s clear h => ?_)
  have same : (s.list a.statements).items = s.held (.statements c.document) := by
    rw [Store.held, spot, h]
  refine ⟨⟨(s, s), List.mem_append_right _ (List.mem_singleton_self _), clear.has, same.symm⟩,
    fun v hv => ?_⟩
  rw [same] at hv
  exact hv

theorem tells_documentText :
    Tells c (fun _ _ => True) (p.documentText c.document) fun text => Rendered c text := by
  refine tells_bind tells_arena fun place => ?_
  refine tells_bind (R := fun items trail s =>
    Glimpsed trail (.statements c.document) items ∧ ∀ v ∈ items, Stands c v trail s) ?_ fun items => ?_
  · rintro g s clear ⟨a, same, rfl⟩
    exact tells_arenaSnapshot a g s clear same
  have firm : Firm c fun trail s =>
      Glimpsed trail (.statements c.document) items ∧ ∀ v ∈ items, Stands c v trail s := by
    refine ⟨fun _ _ _ clear gentle h => ⟨h.1, fun v hv => ?_⟩, fun _ _ step h => ⟨h.1.mono step, h.2⟩⟩
    exact (firm_stands v).later _ _ _ clear gentle (h.2 v hv)
  refine tells_bind (tells_statements p firm fun _ _ h => h.2) fun xs => ?_
  rw [fileText_text]
  refine tells_pure fun trail s _ h => ?_
  obtain ⟨⟨glimpsed, -⟩, told, rfl, each⟩ := h
  refine ⟨items, told, glimpsed, each, ?_⟩
  rw [Layout.file, Layout.linesFrom_map_shown, Layout.file]

/-- A rendering gives a text that is put together from what was held at times during it, unless
it is refused a guard. -/
theorem tells_render : Tells c (fun _ _ => True) c.document.render fun text => Rendered c text :=
  tells_documentText (.deep 999)

end Overlap

end NinjaFile
