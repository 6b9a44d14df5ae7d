import NinjaFile.Manifest.Builder
import NinjaFile.Proofs.Document.Building

/-!
# The latest statement

What is attached through a handle to the statement that was appended last goes into this
statement.
-/

namespace NinjaFile

open Program Store Action

/-- A handle to the last statement of a document, with what this statement says. -/
structure Latest (given : Store) (d : DocumentId) (a : Arena) (h : Handle) (e : Expected)
    (file : List Statement) (st : Statement) (s : Store) : Prop where
  arena : h.arena = a
  expected : h.expected = e
  index : h.index = file.length
  last : ∃ vs, ∃ n : Node, n.toValue ∉ vs ∧ h.Leads n.toValue s ∧
    Building given d a (vs ++ [n.toValue]) (file ++ [st]) s

section Insertions

variable {given : Store} {d : DocumentId} {a : Arena} {vs : List Value}
  {file : List Statement} {s₀ s : Store}

/-- An insertion gives a handle to the last statement. -/
theorem Building.returns_insert (h : Building given d a vs file s₀) {n : Node} {st : Statement}
    (hn : Made s₀ n st s) {e : Expected} (admits : e.admits n.toValue) :
    Returns ((Value.object (.arena a)).insert e n.toValue) s fun h s' =>
      Latest given d a h e file st s' := by
  have fresh : n.toValue ∉ vs := fun mem => hn.new (h.nodes n mem).has
  rw [Value.insert]
  refine returns_then (h.returns_append (hn.joining h.fresh)) fun i s' found => ?_
  obtain ⟨hi, h'⟩ := found
  have made : alone (Handle.make e (.object (.arena a)) (.int i)) s' =
      (.ok ⟨s'.serial, e, a, i⟩, { s' with serial := s'.serial + 1 }) := rfl
  refine returns_of_alone made ⟨rfl, rfl, ?_, vs, n, fresh, ?_, ?_⟩
  · rw [hi, h.length_eq]
  · refine ⟨Nat.lt_succ_self _, ?_, ⟨vs.length, by rw [hi], ?_⟩, admits⟩
    · exact h'.fresh (.serial s'.serial) (Nat.lt_irrefl _)
    · change (s'.list a.statements).items[vs.length]? = _
      rw [h'.items]
      simp
  · exact h'.adds (adds_serial s' (Nat.le_succ _))

theorem Building.returns_add (h : Building given d a vs file s) (f : Serial → Object)
    {st : Statement}
    (identity : (f s.serial).identity = .serial s.serial)
    (plain : (f s.serial).node? = none) (reads : ∀ s' : Store, s'.Reads (.object (f s.serial)) st) :
    Returns (makeObject f) s fun v s' => Returns (d.add v) s' fun _ s'' =>
      ∃ vs', Building given d a vs' (file ++ [st]) s'' := by
  have made : alone (makeObject f) s =
      (.ok (.object (f s.serial)), { s with serial := s.serial + 1 }) := rfl
  have hadds : s.Adds { s with serial := s.serial + 1 } := adds_serial s (Nat.le_succ _)
  have joining : Joining s (.object (f s.serial)) st { s with serial := s.serial + 1 } := by
    refine ⟨hadds, fun n hn => ?_, reads _, fun i hi => ?_⟩
    · have : (f s.serial).node? = some n := by
        rw [Value.object.inj hn, Object.node?_ofNode]
      rw [plain] at this
      cases this
    · obtain rfl : (f s.serial).identity = i := Option.some.inj hi
      rw [identity]
      exact h.fresh (.serial s.serial) (Nat.lt_irrefl _)
  refine returns_of_alone made ?_
  rw [DocumentId.add]
  refine returns_bind (returns_of_alone (h.adds hadds).alone_statements ?_)
  exact returns_then (h.returns_append joining) fun _ s' hs' => returns_pure ⟨_, hs'.2⟩

end Insertions

namespace Latest

variable {given : Store} {d : DocumentId} {a : Arena} {h : Handle} {e : Expected}
  {file : List Statement}
  {st : Statement} {s s' : Store}

theorem adds (hl : Latest given d a h e file st s) (hadds : s.Adds s') :
    Latest given d a h e file st s' := by
  obtain ⟨vs, n, hn, leads, building⟩ := hl.last
  exact { hl with last := ⟨vs, n, hn, leads.mono hadds.extends_, building.adds hadds⟩ }

theorem alone_part (hl : Latest given d a h e file st s) :
    ∃ n : Node, h.expected.admits n.toValue ∧ s.NodeReads n st ∧ ∀ q ∈ n.parts,
      ((Receiver.handle h).part q).alone s = (.ok (.object (.list (s.part n q))), s) ∧
      s.Open (s.part n q) ∧
      (∀ q' ∈ n.parts, q' ≠ q → s.part n q' ≠ s.part n q) ∧
      ∀ items st', (s.modifyList (s.part n q) (·.append items)).NodeReads n st' →
        Latest given d a h e file st' (s.modifyList (s.part n q) (·.append items)) := by
  obtain ⟨vs, n, hn, leads, building⟩ := hl.last
  have mem : n.toValue ∈ vs ++ [n.toValue] := by simp
  have placed := building.nodes n mem
  refine ⟨n, leads.admits, (reads_node s n st).mp building.reads_last.2, fun q hq =>
    ⟨?_, placed.opens q hq, fun q' hq' hne heq => ?_, fun items st' reads => ?_⟩⟩
  · have looked : h.statement.alone s = (.ok n.toValue, s) :=
      leads.alone_statement (hl.arena ▸ building.opens)
    have node : h.node.alone s = (.ok n, s) := by
      rw [Handle.node, alone_bind_ok looked]
      cases n <;> rfl
    rw [Receiver.part, Receiver.resolve, alone_bind_ok node, alone_read, partValue,
      placed.bare]
    rfl
  · exact hne (building.apart n n mem mem q' hq' q hq heq).2
  · exact { hl with
      last := ⟨vs, n, hn, leads.mono (extends_append _ _ _), building.change hn hq reads⟩ }

theorem returns_bind (hl : Latest given d a h e file st s) (name value : String) :
    Returns ((Receiver.handle h).bind (.text name) (.text value)) s fun _ s' =>
      Latest given d a h e file (st.addLines [.binding ⟨name, value⟩]) s' := by
  have made : alone (makeBinding (.text name) (.text value)) s =
      (.ok (.object (.binding s.serial ⟨name, value⟩)), { s with serial := s.serial + 1 }) := rfl
  have line : (Value.object (.binding s.serial ⟨name, value⟩)).line? =
      some (.binding ⟨name, value⟩) := rfl
  obtain ⟨n, -, reads, part⟩ := (hl.adds (adds_serial s (Nat.le_succ s.serial))).alone_part
  obtain ⟨looked, hopen, others, change⟩ := part .bindings (bindings_mem_parts n)
  rw [Receiver.bind]
  refine Action.returns_bind (returns_of_alone made ?_)
  refine Action.returns_bind (returns_of_alone looked ?_)
  refine Action.returns_bind (returns_of_alone (ListId.alone_add hopen _) (returns_pure ?_))
  refine change _ _ (reads.addLine line rfl ?_ fun q hq hne => ?_)
  · exact (items_append_eq _ _ _ _).trans (if_pos ⟨rfl, hopen.known⟩)
  · refine (items_append_eq _ _ _ _).trans (if_neg ?_)
    exact fun both => others q hq hne both.1.symm

theorem returns_attachBindings (hl : Latest given d a h e file st s) (bindings : List Binding) :
    Returns (Builder.attachBindings h bindings) s fun _ s' =>
      Latest given d a h e file (st.addLines (bindings.map .binding)) s' := by
  induction bindings generalizing st s with
  | nil =>
      refine returns_pure ?_
      rw [List.map_nil, Statement.addLines_nil]
      exact hl
  | cons b rest ih =>
      refine returns_then (hl.returns_bind b.name b.value) fun _ s' hl' => ?_
      refine returns_mono (ih hl') fun _ s'' hl'' => ?_
      rw [Statement.addLines_addLines] at hl''
      exact hl''

theorem returns_addPaths (hl : Latest given d a h .build file st s) (slot : Slot)
    (paths : List String) :
    Returns ((Receiver.handle h).addPaths slot (.list (paths.map .text))) s fun _ s' =>
      Latest given d a h .build file (st.addPaths slot paths) s' := by
  obtain ⟨n, admits, reads, part⟩ := hl.alone_part
  rw [hl.expected] at admits
  obtain ⟨b, rfl⟩ : ∃ b, n = .build b := by
    cases n with
    | build b => exact ⟨b, rfl⟩
    | rule r => cases admits
    | pool p => cases admits
  obtain ⟨looked, hopen, others, change⟩ := part (.paths slot) (paths_mem_parts b slot)
  rw [Receiver.addPaths]
  refine Action.returns_bind (returns_of_alone looked ?_)
  refine Action.returns_bind (returns_of_alone (alone_ofExcept _ _) ?_)
  refine Action.returns_bind (returns_of_alone (alone_arguments paths s) ?_)
  refine returns_of_alone (ListId.alone_extend hopen _) ?_
  refine change _ _ (reads.addPaths rfl ?_ fun q hq hne => ?_)
  · exact (items_append_eq _ _ _ _).trans (if_pos ⟨rfl, hopen.known⟩)
  · refine (items_append_eq _ _ _ _).trans (if_neg ?_)
    exact fun both => others q hq hne both.1.symm

end Latest

end NinjaFile
