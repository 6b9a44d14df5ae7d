import Mathlib.Data.List.Forall2
import NinjaFile.Proofs.Program.Alone
import NinjaFile.Proofs.Store.Effect
import NinjaFile.Rendering

/-!
# Content of statements

What the values of a document say as statements, as it lies in the tables of a store.  A
node says what is in its lists; so long as nobody touches these, it goes on saying it.
-/

namespace NinjaFile

/-! ## What a value says -/

/-- The line that an item of a list of bindings is. -/
def Value.line? : Value → Option BlockLine
  | .object (.binding _ b) => some (.binding b)
  | _ => none

theorem Value.eq_of_line? {v : Value} {line : BlockLine} (h : v.line? = some line) :
    ∃ n b, v = .object (.binding n b) ∧ line = .binding b := by
  cases v with
  | object o =>
      cases o with
      | binding n b => exact ⟨n, b, rfl, (Option.some.inj h).symm⟩
      | _ => exact nomatch h
  | _ => exact nomatch h

theorem Value.eq_toValue {v : Value} {n : Node} (h : v.node? = some n) : v = n.toValue := by
  cases v with
  | object o =>
      cases o with
      | rule | build | pool =>
          cases h
          rfl
      | _ => cases h
  | _ => cases h

namespace Store

/-- A list holds the bindings of a block. -/
def Lines (s : Store) (l : ListId) (block : List BlockLine) : Prop :=
  (s.list l).items.map Value.line? = block.map some

def Paths (s : Store) (l : ListId) (paths : List String) : Prop :=
  (s.list l).items = paths.map .text

/-- The name and the other field of a node. -/
def fields (s : Store) : Node → String × Bool
  | .rule r => ((s.rule r).name, false)
  | .pool p => ((s.pool p).name, (s.pool p).builtIn)
  | .build b => ((s.build b).ruleName, false)

/-- A node says a statement. -/
def NodeReads (s : Store) (n : Node) (st : Statement) : Prop :=
  match n, st with
  | .rule _, .rule name block => s.fields n = (name, false) ∧ s.Lines (s.part n .bindings) block
  | .pool _, .pool name block builtIn =>
      s.fields n = (name, builtIn) ∧ s.Lines (s.part n .bindings) block
  | .build _, .build edge =>
      s.fields n = (edge.ruleName, false) ∧
        (∀ slot, s.Paths (s.part n (.paths slot)) (edge.paths.get slot)) ∧
        s.Lines (s.part n .bindings) edge.block
  | _, _ => False

/-- A value says a statement. -/
def Reads (s : Store) (v : Value) (st : Statement) : Prop :=
  match v with
  | .object (.rule r) => s.NodeReads (.rule r) st
  | .object (.pool p) => s.NodeReads (.pool p) st
  | .object (.build b) => s.NodeReads (.build b) st
  | .object (.comment _ text) => st = .comment text
  | .object (.binding _ b) => st = .binding (.binding b)
  | .object (.defaults _ outputs) => st = .defaults outputs
  | .object (.subninja _ path) => st = .subninja path
  | .object (.inclusion _ path) => st = .inclusion path
  | _ => False

theorem reads_node (s : Store) (n : Node) (st : Statement) :
    s.Reads n.toValue st ↔ s.NodeReads n st := by
  cases n <;> exact Iff.rfl

theorem bindings_mem_parts (n : Node) : Part.bindings ∈ n.parts := by
  cases n <;> simp [Node.parts]

theorem paths_mem_parts (b : BuildId) (slot : Slot) : Part.paths slot ∈ (Node.build b).parts := by
  cases slot <;> simp [Node.parts, Slot.all]

theorem NodeReads.congr {s s' : Store} {n : Node} {st : Statement} (h : s.NodeReads n st)
    (fields : s'.fields n = s.fields n)
    (items : ∀ q ∈ n.parts, (s'.list (s'.part n q)).items = (s.list (s.part n q)).items) :
    s'.NodeReads n st := by
  cases n <;> cases st <;> try exact h
  · obtain ⟨hfields, hlines⟩ := h
    refine ⟨fields.trans hfields, ?_⟩
    rw [Lines, items _ (bindings_mem_parts _)]
    exact hlines
  · obtain ⟨hfields, hpaths, hlines⟩ := h
    refine ⟨fields.trans hfields, fun slot => ?_, ?_⟩
    · rw [Paths, items _ (paths_mem_parts _ slot)]
      exact hpaths slot
    · rw [Lines, items _ (bindings_mem_parts _)]
      exact hlines
  · obtain ⟨hfields, hlines⟩ := h
    refine ⟨fields.trans hfields, ?_⟩
    rw [Lines, items _ (bindings_mem_parts _)]
    exact hlines

end Store

namespace Statement

/-- The statement with more lines in its block. -/
def addLines (lines : List BlockLine) : Statement → Statement
  | .rule name block => .rule name (block ++ lines)
  | .build edge => .build { edge with block := edge.block ++ lines }
  | .pool name block builtIn => .pool name (block ++ lines) builtIn
  | st => st

/-- The statement with more paths in a slot. -/
def addPaths (slot : Slot) (paths : List String) : Statement → Statement
  | .build edge =>
      .build { edge with paths := edge.paths.set slot (edge.paths.get slot ++ paths) }
  | st => st

@[simp] theorem addLines_nil (st : Statement) : st.addLines [] = st := by
  cases st <;> simp [addLines]

theorem addLines_addLines (st : Statement) (lines more : List BlockLine) :
    (st.addLines lines).addLines more = st.addLines (lines ++ more) := by
  cases st <;> simp [addLines]

end Statement

namespace Store

theorem NodeReads.addLine {s s' : Store} {n : Node} {st : Statement} (h : s.NodeReads n st)
    {v : Value} {line : BlockLine} (hv : v.line? = some line)
    (fields : s'.fields n = s.fields n)
    (bindings : (s'.list (s'.part n .bindings)).items =
      (s.list (s.part n .bindings)).items ++ [v])
    (items : ∀ q ∈ n.parts, q ≠ .bindings →
      (s'.list (s'.part n q)).items = (s.list (s.part n q)).items) :
    s'.NodeReads n (st.addLines [line]) := by
  have lines {block : List BlockLine} (hlines : s.Lines (s.part n .bindings) block) :
      s'.Lines (s'.part n .bindings) (block ++ [line]) := by
    rw [Lines, bindings, List.map_append, hlines]
    simp [hv]
  cases n <;> cases st <;> try exact h
  · exact ⟨fields.trans h.1, lines h.2⟩
  · refine ⟨fields.trans h.1, fun slot => ?_, lines h.2.2⟩
    rw [Paths, items _ (paths_mem_parts _ slot) (by simp)]
    exact h.2.1 slot
  · exact ⟨fields.trans h.1, lines h.2⟩

theorem NodeReads.addPaths {s s' : Store} {b : BuildId} {st : Statement}
    (h : s.NodeReads (.build b) st) {slot : Slot} {paths : List String}
    (fields : s'.fields (.build b) = s.fields (.build b))
    (extended : (s'.list (s'.part (.build b) (.paths slot))).items =
      (s.list (s.part (.build b) (.paths slot))).items ++ paths.map .text)
    (items : ∀ q ∈ (Node.build b).parts, q ≠ .paths slot →
      (s'.list (s'.part (.build b) q)).items = (s.list (s.part (.build b) q)).items) :
    s'.NodeReads (.build b) (st.addPaths slot paths) := by
  cases st <;> try exact h
  obtain ⟨hfields, hpaths, hlines⟩ := h
  refine ⟨fields.trans hfields, fun other => ?_, ?_⟩
  · rw [Paths, Slots.get_set]
    split
    · next heq =>
        subst heq
        rw [extended, hpaths other, List.map_append]
    · next hne =>
        rw [items _ (paths_mem_parts _ other) (by simpa using hne)]
        exact hpaths other
  · rw [Lines, items _ (bindings_mem_parts _) (by simp)]
    exact hlines

/-! ## Stores that only have new things -/

/-- The node has been made. -/
def HasNode (s : Store) : Node → Prop
  | .rule r => r.index < s.rules.size
  | .build b => b.index < s.builds.size
  | .pool p => p.index < s.pools.size

/-- Everything that there was is as it was, and nothing has been assigned. -/
structure Adds (s s' : Store) : Prop where
  lists : s.lists.size ≤ s'.lists.size
  list : ∀ l, l.index < s.lists.size → s'.list l = s.list l
  rules : s.rules.size ≤ s'.rules.size
  rule : ∀ r, r.index < s.rules.size → s'.rule r = s.rule r
  builds : s.builds.size ≤ s'.builds.size
  build : ∀ b, b.index < s.builds.size → s'.build b = s.build b
  pools : s.pools.size ≤ s'.pools.size
  pool : ∀ p, p.index < s.pools.size → s'.pool p = s.pool p
  documents : s'.documents = s.documents
  serial : s.serial ≤ s'.serial
  assigned : s'.assigned = s.assigned

namespace Adds

variable {s s' s'' : Store}

theorem refl (s : Store) : s.Adds s :=
  ⟨Nat.le_refl _, fun _ _ => rfl, Nat.le_refl _, fun _ _ => rfl, Nat.le_refl _, fun _ _ => rfl,
    Nat.le_refl _, fun _ _ => rfl, rfl, Nat.le_refl _, rfl⟩

theorem trans (h : s.Adds s') (h' : s'.Adds s'') : s.Adds s'' where
  lists := Nat.le_trans h.lists h'.lists
  list l hl := (h'.list l (Nat.lt_of_lt_of_le hl h.lists)).trans (h.list l hl)
  rules := Nat.le_trans h.rules h'.rules
  rule r hr := (h'.rule r (Nat.lt_of_lt_of_le hr h.rules)).trans (h.rule r hr)
  builds := Nat.le_trans h.builds h'.builds
  build b hb := (h'.build b (Nat.lt_of_lt_of_le hb h.builds)).trans (h.build b hb)
  pools := Nat.le_trans h.pools h'.pools
  pool p hp := (h'.pool p (Nat.lt_of_lt_of_le hp h.pools)).trans (h.pool p hp)
  documents := h'.documents.trans h.documents
  serial := Nat.le_trans h.serial h'.serial
  assigned := h'.assigned.trans h.assigned

theorem hasNode (h : s.Adds s') {n : Node} (hn : s.HasNode n) : s'.HasNode n := by
  cases n with
  | rule r => exact Nat.lt_of_lt_of_le hn h.rules
  | build b => exact Nat.lt_of_lt_of_le hn h.builds
  | pool p => exact Nat.lt_of_lt_of_le hn h.pools

theorem part (h : s.Adds s') {n : Node} (hn : s.HasNode n) (q : Part) :
    s'.part n q = s.part n q := by
  cases n with
  | rule r => simp only [Store.part, h.rule r hn]
  | build b => cases q <;> simp only [Store.part, h.build b hn]
  | pool p => simp only [Store.part, h.pool p hn]

theorem fields (h : s.Adds s') {n : Node} (hn : s.HasNode n) : s'.fields n = s.fields n := by
  cases n with
  | rule r => simp only [Store.fields, h.rule r hn]
  | build b => simp only [Store.fields, h.build b hn]
  | pool p => simp only [Store.fields, h.pool p hn]

theorem open_ (h : s.Adds s') {l : ListId} (hl : s.Open l) : s'.Open l :=
  ⟨Nat.lt_of_lt_of_le hl.known h.lists, by rw [h.list l hl.known]; exact hl.free⟩

theorem modifyList (h : s.Adds s') {l : ListId} (hl : s.lists.size ≤ l.index)
    (f : GuardedList → GuardedList) : s.Adds (s'.modifyList l f) where
  lists := by
    rw [size_modifyList]
    exact h.lists
  list j hj := by
    rw [list_modifyList, if_neg]
    · exact h.list j hj
    · rintro ⟨rfl, -⟩
      omega
  rules := h.rules
  rule := h.rule
  builds := h.builds
  build := h.build
  pools := h.pools
  pool := h.pool
  documents := h.documents
  serial := h.serial
  assigned := h.assigned

end Adds

theorem adds_insertList (s : Store) (l : GuardedList) : s.Adds (s.insertList l).2 where
  lists := by simp [insertList]
  list j hj := by rw [list_insertList, if_neg (Nat.ne_of_lt hj)]
  rules := Nat.le_refl _
  rule _ _ := rfl
  builds := Nat.le_refl _
  build _ _ := rfl
  pools := Nat.le_refl _
  pool _ _ := rfl
  documents := rfl
  serial := Nat.le_refl _
  assigned := rfl

theorem adds_insertRule (s : Store) (r : RuleRecord) : s.Adds (s.insertRule r).2 where
  lists := Nat.le_refl _
  list _ _ := rfl
  rules := by simp [insertRule]
  rule j hj := (Table.get_insert s.rules r j.index).trans (if_neg (Nat.ne_of_lt hj))
  builds := Nat.le_refl _
  build _ _ := rfl
  pools := Nat.le_refl _
  pool _ _ := rfl
  documents := rfl
  serial := Nat.le_refl _
  assigned := rfl

theorem adds_insertBuild (s : Store) (b : BuildRecord) : s.Adds (s.insertBuild b).2 where
  lists := Nat.le_refl _
  list _ _ := rfl
  rules := Nat.le_refl _
  rule _ _ := rfl
  builds := by simp [insertBuild]
  build j hj := (Table.get_insert s.builds b j.index).trans (if_neg (Nat.ne_of_lt hj))
  pools := Nat.le_refl _
  pool _ _ := rfl
  documents := rfl
  serial := Nat.le_refl _
  assigned := rfl

theorem adds_insertPool (s : Store) (p : PoolRecord) : s.Adds (s.insertPool p).2 where
  lists := Nat.le_refl _
  list _ _ := rfl
  rules := Nat.le_refl _
  rule _ _ := rfl
  builds := Nat.le_refl _
  build _ _ := rfl
  pools := by simp [insertPool]
  pool j hj := (Table.get_insert s.pools p j.index).trans (if_neg (Nat.ne_of_lt hj))
  documents := rfl
  serial := Nat.le_refl _
  assigned := rfl

theorem adds_serial (s : Store) {n : Serial} (hn : s.serial ≤ n) :
    s.Adds { s with serial := n } :=
  { Adds.refl s with serial := hn }

theorem adds_log (s : Store) (logging : Logging) : s.Adds { s with logging := logging } :=
  { Adds.refl s with }

/-! ## Things that nothing is assigned to -/

/-- The thing has been made, or could not be. -/
def Knows (s : Store) : Identity → Prop
  | .list l | .arena l => l.index < s.lists.size
  | .document d => d.index < s.documents.size
  | .rule r => s.HasNode (.rule r)
  | .build b => s.HasNode (.build b)
  | .pool p => s.HasNode (.pool p)
  | .serial n => n < s.serial
  | _ => True

/-- Nothing has been assigned to the thing. -/
def Bare (s : Store) (i : Identity) : Prop := ∀ name, s.assigned? i name = none

/-- Things that have not been made have nothing assigned to them. -/
def Fresh (s : Store) : Prop := ∀ i, ¬ s.Knows i → s.Bare i

theorem fresh_ofFiles (files : FileTree) : (ofFiles files).Fresh := fun _ _ _ => rfl

theorem knows_identity (s : Store) (n : Node) : s.Knows n.identity ↔ s.HasNode n := by
  cases n <;> exact Iff.rfl

theorem Bare.field {s : Store} {v : Value} {i : Identity} (hv : v.identity? = some i)
    (h : s.Bare i) (name : String) : v.stored? s name = v.field? s name := by
  simp [Value.stored?, hv, h name]

namespace Adds

variable {s s' : Store} {i : Identity}

theorem bare (h : s.Adds s') (hi : s.Bare i) : s'.Bare i := fun name => by
  rw [assigned?, h.assigned]
  exact hi name

theorem knows (h : s.Adds s') (hi : s.Knows i) : s'.Knows i := by
  cases i with
  | list l | arena l => exact Nat.lt_of_lt_of_le hi h.lists
  | document d =>
      refine Nat.lt_of_lt_of_eq hi ?_
      rw [h.documents]
  | rule r => exact h.hasNode (n := .rule r) hi
  | build b => exact h.hasNode (n := .build b) hi
  | pool p => exact h.hasNode (n := .pool p) hi
  | serial n => exact Nat.lt_of_lt_of_le hi h.serial
  | guard _ | source _ | ownership _ | kind _ => trivial

theorem fresh (h : s.Adds s') (hs : s.Fresh) : s'.Fresh :=
  fun i hi => h.bare (hs i fun known => hi (h.knows known))

theorem extends_ (h : s.Adds s') : s.Extends s' where
  items l := by
    by_cases hl : l.index < s.lists.size
    · simp only [h.list l hl, List.prefix_rfl]
    · have none : s.lists.get? l.index = none :=
        (Table.get?_eq_none_iff _ _).mpr (Nat.not_lt.mp hl)
      rw [Store.list, Table.get, none]
      exact List.nil_prefix
  lists := h.lists
  documents := Nat.le_of_eq (congrArg Table.size h.documents.symm)
  document id _ := by rw [Store.document, Store.document, h.documents]
  serial := h.serial
  attributes n name _ := by rw [assigned?, assigned?, h.assigned]

end Adds

/-! ## Stores with new documents -/

/-- Everything that there was is as it was, and there may be documents that are new. -/
structure Beside (s s' : Store) : Prop where
  rest : Adds { s with documents := s'.documents } s'
  size : s.documents.size ≤ s'.documents.size
  document : ∀ d, d.index < s.documents.size → s'.document d = s.document d

namespace Beside

variable {s s' s'' : Store}

theorem lists (h : s.Beside s') : s.lists.size ≤ s'.lists.size := h.rest.lists

theorem assigned (h : s.Beside s') : s'.assigned = s.assigned := h.rest.assigned

theorem of_adds (h : s.Adds s') : s.Beside s' where
  rest := { h with documents := rfl }
  size := Nat.le_of_eq (congrArg Table.size h.documents.symm)
  document d _ := by rw [Store.document, Store.document, h.documents]

theorem adds (h : s.Beside s') (hadds : s'.Adds s'') : s.Beside s'' := by
  have rest : Adds { s with documents := s'.documents } s'' := h.rest.trans hadds
  refine ⟨{ rest with documents := rfl }, ?_, fun d hd => ?_⟩
  · rw [hadds.documents]
    exact h.size
  · rw [← h.document d hd, Store.document, Store.document, hadds.documents]

theorem modifyList (h : s.Beside s') {l : ListId} (hl : s.lists.size ≤ l.index)
    (f : GuardedList → GuardedList) : s.Beside (s'.modifyList l f) where
  rest := h.rest.modifyList hl f
  size := h.size
  document := h.document

theorem insertDocument (h : s.Beside s') (r : DocumentRecord) :
    s.Beside (s'.insertDocument r).2 where
  rest := { h.rest with documents := rfl }
  size := by
    refine Nat.le_trans h.size ?_
    simp [Store.insertDocument]
  document d hd := by
    rw [← h.document d hd]
    refine (Table.get_insert s'.documents r d.index).trans (if_neg (Nat.ne_of_lt ?_))
    exact Nat.lt_of_lt_of_le hd h.size

end Beside

end Store

end NinjaFile

/-!
## Parts of nodes

What there is after a list has been put in the place of a part, or a list has changed.
-/

namespace NinjaFile.Store

variable {s : Store} {n : Node}

/-! ## Changes to lists -/

@[simp] theorem hasNode_modifyList (s : Store) (l : ListId) (f : GuardedList → GuardedList)
    (n : Node) : (s.modifyList l f).HasNode n ↔ s.HasNode n := by
  cases n <;> exact Iff.rfl

@[simp] theorem part_modifyList (s : Store) (l : ListId) (f : GuardedList → GuardedList)
    (n : Node) (q : Part) : (s.modifyList l f).part n q = s.part n q := by
  cases n <;> cases q <;> rfl

@[simp] theorem ownership_append (s : Store) (l : ListId) (items : List Value) (j : ListId) :
    ((s.modifyList l (·.append items)).list j).ownership = (s.list j).ownership := by
  rw [list_modifyList]
  split <;> rfl

@[simp] theorem hasNode_insertList (s : Store) (l : GuardedList) (n : Node) :
    (s.insertList l).2.HasNode n ↔ s.HasNode n := by
  cases n <;> exact Iff.rfl

@[simp] theorem part_insertList (s : Store) (l : GuardedList) (n : Node) (q : Part) :
    (s.insertList l).2.part n q = s.part n q := by
  cases n <;> cases q <;> rfl

theorem field_part (s : Store) {q : Part} (hq : q ∈ n.parts) :
    n.toValue.field? s q.name = some (.object (.list (s.part n q))) := by
  cases n with
  | rule r =>
      obtain rfl : q = .bindings := by simpa [Node.parts] using hq
      rfl
  | pool p =>
      obtain rfl : q = .bindings := by simpa [Node.parts] using hq
      rfl
  | build b =>
      cases q with
      | bindings => rfl
      | paths slot => cases slot <;> rfl

/-! ## Other parts -/

theorem hasNode_setPart (s : Store) (n : Node) (q : Part) (l : ListId) (m : Node) :
    (s.setPart n q l).HasNode m ↔ s.HasNode m := by
  cases n <;> cases q <;> cases m <;>
    simp [HasNode, setPart, modifyRule, modifyBuild, modifyPool]

theorem fields_setPart (s : Store) (n : Node) (q : Part) (l : ListId) (m : Node) :
    (s.setPart n q l).fields m = s.fields m := by
  have kept {α β : Type} [Inhabited α] (t : Table α) (i j : Nat) (f : α → α) (g : α → β)
      (h : ∀ a, g (f a) = g a) : g ((t.modify i f).get j) = g (t.get j) := by
    rw [Table.get_modify]
    split
    · exact h _
    · rfl
  cases n with
  | rule i =>
      cases m with
      | rule j => exact kept s.rules i.index j.index _ (fun r => (r.name, false)) fun _ => rfl
      | _ => rfl
  | pool i =>
      cases m with
      | pool j => exact kept s.pools i.index j.index _ (fun p => (p.name, p.builtIn)) fun _ => rfl
      | _ => rfl
  | build i =>
      cases m with
      | build j =>
          cases q <;>
            exact kept s.builds i.index j.index _ (fun b => (b.ruleName, false)) fun _ => rfl
      | _ => cases q <;> rfl

theorem part_setPart {q q' : Part} (hn : s.HasNode n) (hq : q ∈ n.parts) (hq' : q' ∈ n.parts)
    (l : ListId) : (s.setPart n q l).part n q' = if q' = q then l else s.part n q' := by
  cases n with
  | rule r =>
      obtain rfl : q = .bindings := by simpa [Node.parts] using hq
      obtain rfl : q' = .bindings := by simpa [Node.parts] using hq'
      rw [if_pos rfl]
      have := (Table.get_modify s.rules r.index r.index
        (fun r => { r with bindings := l })).trans (if_pos ⟨rfl, hn⟩)
      exact congrArg RuleRecord.bindings this
  | pool p =>
      obtain rfl : q = .bindings := by simpa [Node.parts] using hq
      obtain rfl : q' = .bindings := by simpa [Node.parts] using hq'
      rw [if_pos rfl]
      have := (Table.get_modify s.pools p.index p.index
        (fun p => { p with bindings := l })).trans (if_pos ⟨rfl, hn⟩)
      exact congrArg PoolRecord.bindings this
  | build b =>
      have found (f : BuildRecord → BuildRecord) :
          (s.modifyBuild b f).build b = f (s.build b) :=
        (Table.get_modify s.builds b.index b.index f).trans (if_pos ⟨rfl, hn⟩)
      cases q <;> cases q' <;> simp [Store.setPart, Store.part, found, Slots.get_set]

theorem part_setPart_of_ne {n m : Node} (hne : m ≠ n) (s : Store) (q r : Part) (l : ListId) :
    (s.setPart n q l).part m r = s.part m r := by
  have other {α : Type} [Inhabited α] (t : Table α) {i j : Nat} (hij : i ≠ j) (f : α → α) :
      (t.modify i f).get j = t.get j :=
    (Table.get_modify t i j f).trans (if_neg fun h => hij h.1)
  cases n with
  | rule i =>
      cases m with
      | rule j =>
          have hij : i.index ≠ j.index := fun h => hne (congrArg Node.rule (by cases i; cases j; cases h; rfl))
          exact congrArg RuleRecord.bindings (other s.rules hij _)
      | build j => cases r <;> rfl
      | pool j => rfl
  | pool i =>
      cases m with
      | pool j =>
          have hij : i.index ≠ j.index := fun h => hne (congrArg Node.pool (by cases i; cases j; cases h; rfl))
          exact congrArg PoolRecord.bindings (other s.pools hij _)
      | build j => cases r <;> rfl
      | rule j => rfl
  | build i =>
      cases m with
      | build j =>
          have hij : i.index ≠ j.index := fun h => hne (congrArg Node.build (by cases i; cases j; cases h; rfl))
          have same (f : BuildRecord → BuildRecord) : (s.modifyBuild i f).build j = s.build j :=
            other s.builds hij f
          cases q <;> cases r <;> simp only [Store.part, Store.setPart, same]
      | rule j => cases q <;> rfl
      | pool j => cases q <;> rfl

theorem part_setPart_or {n m : Node} {q r : Part} (hn : s.HasNode n) (hq : q ∈ n.parts)
    (hr : r ∈ m.parts) (l : ListId) :
    m = n ∧ r = q ∧ (s.setPart n q l).part m r = l ∨
      (s.setPart n q l).part m r = s.part m r := by
  by_cases heq : m = n
  · subst heq
    have found := part_setPart hn hq hr l
    by_cases hrq : r = q
    · exact .inl ⟨rfl, hrq, found.trans (if_pos hrq)⟩
    · exact .inr (found.trans (if_neg hrq))
  · exact .inr (part_setPart_of_ne heq ..)

theorem setPart_same (s : Store) (n : Node) (q : Part) : s.setPart n q (s.part n q) = s := by
  have kept {α : Type} [Inhabited α] (t : Table α) (i : Nat) (f : α → α)
      (h : f (t.get i) = t.get i) : t.modify i f = t := Table.modify_eq_self t i h
  cases n with
  | rule i =>
      refine congrArg (fun t => { s with rules := t }) (kept s.rules i.index _ ?_)
      rfl
  | pool i =>
      refine congrArg (fun t => { s with pools := t }) (kept s.pools i.index _ ?_)
      rfl
  | build i =>
      cases q with
      | bindings =>
          refine congrArg (fun t => { s with builds := t }) (kept s.builds i.index _ ?_)
          rfl
      | paths slot =>
          have same : (s.build i).paths.set slot ((s.build i).paths.get slot) =
              (s.build i).paths := by
            refine Slots.ext_get fun other => ?_
            rw [Slots.get_set]
            split
            · next h => rw [h]
            · rfl
          refine congrArg (fun t => { s with builds := t }) (kept s.builds i.index _ ?_)
          exact congrArg (fun paths => { s.build i with paths }) same

/-- Putting a list in the place of a part does not need to take an assignment away. -/
theorem putPart_eq (bare : s.Bare n.identity) (q : Part) (l : ListId) :
    s.putPart n q (.object (.list l)) = s.setPart n q l := by
  rw [putPart, unassign, dropKey_of_lookup]
  rw [assigned_setPart]
  exact bare q.name

end NinjaFile.Store
