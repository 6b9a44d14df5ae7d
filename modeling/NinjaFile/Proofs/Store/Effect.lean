import NinjaFile.Proofs.Lock.Free
import NinjaFile.Proofs.Store.Reading

/-!
# Effects

What an atomic step of the library can do to a store, making a document apart.  A list
only ever gets longer, a table only ever gets more entries, a new guard is free, and
attributes are given to a thing when it is made and not later; all that ever gives way to
something else is the list that a node has as a part.
-/

namespace NinjaFile

/-- Attributes that do not pretend to be the arena of a handle. -/
def PlainAttributes (attributes : List (String × Value)) : Prop :=
  ∀ arena, ("statements", Value.object (.arena arena)) ∉ attributes

theorem plainAttributes_nil : PlainAttributes [] := fun _ h => by cases h

theorem plainAttributes_cons {name : String} {v : Value} {rest : List (String × Value)}
    (h : name ≠ "statements" ∨ ∀ arena, v ≠ .object (.arena arena))
    (hrest : PlainAttributes rest) : PlainAttributes ((name, v) :: rest) := by
  intro arena hmem
  rcases List.mem_cons.mp hmem with heq | hmem
  · cases heq
    rcases h with h | h
    · exact h rfl
    · exact h arena rfl
  · exact hrest arena hmem

namespace Store

/-- The states that one step leads to; `w` is for steps that may write to files. -/
inductive Effect (w : Bool) (s : Store) : Store → Prop where
  | same : Effect w s s
  | log (logging : Logging) : Effect w s { s with logging := logging }
  | files (writes : w = true) (files : FileTree) : Effect w s { s with files := files }
  | source (id : SourceId) (f : Source → Source) : Effect w s (s.modifySource id f)
  | newSource (source : Source) : Effect w s (s.insertSource source).2
  | append (id : ListId) (items : List Value) : Effect w s (s.modifyList id (·.append items))
  | part (node : Node) (part : Part) (list : ListId) :
      Effect w s (s.putPart node part (.object (.list list)))
  | list (l : GuardedList) (free : l.guard.Free) (attributes : List (String × Value))
      (h : PlainAttributes attributes) :
      Effect w s (((s.insertList l).2.assignAll (.list ⟨s.lists.size⟩) attributes).assignAll
        (.guard (.list ⟨s.lists.size⟩)) attributes)
  | arena (l : GuardedList) (free : l.guard.Free) (attributes : List (String × Value))
      (h : PlainAttributes attributes) :
      Effect w s ((s.insertList l).2.assignAll (.arena ⟨s.lists.size⟩) attributes)
  | rule (r : RuleRecord) : Effect w s (s.insertRule r).2
  | build (b : BuildRecord) (attributes : List (String × Value))
      (h : PlainAttributes attributes) :
      Effect w s ((s.insertBuild b).2.assignAll (.build ⟨s.builds.size⟩) attributes)
  | pool (p : PoolRecord) (attributes : List (String × Value)) (h : PlainAttributes attributes) :
      Effect w s ((s.insertPool p).2.assignAll (.pool ⟨s.pools.size⟩) attributes)
  | guard (g : Guard) (free : g.Free) (attributes : List (String × Value))
      (h : PlainAttributes attributes) :
      Effect w s ((s.insertGuard g).2.assignAll (.guard (.free ⟨s.guards.size⟩)) attributes)
  | serial (attributes : List (String × Value)) (h : PlainAttributes attributes) :
      Effect w s (s.insertSerial attributes).2

/-! ## Growth -/

/-- A store that came out of another one by steps of the library. -/
structure Extends (s s' : Store) : Prop where
  items : ∀ id, (s.list id).items <+: (s'.list id).items
  lists : s.lists.size ≤ s'.lists.size
  documents : s.documents.size ≤ s'.documents.size
  document : ∀ id, id.index < s.documents.size → s'.document id = s.document id
  serial : s.serial ≤ s'.serial
  attributes : ∀ n name, n < s.serial →
    s'.assigned? (.serial n) name = s.assigned? (.serial n) name

namespace Extends

variable {s s' s'' : Store}

theorem refl (s : Store) : s.Extends s where
  items _ := List.prefix_rfl
  lists := Nat.le_refl _
  documents := Nat.le_refl _
  document _ _ := rfl
  serial := Nat.le_refl _
  attributes _ _ _ := rfl

theorem trans (h : s.Extends s') (h' : s'.Extends s'') : s.Extends s'' where
  items id := (h.items id).trans (h'.items id)
  lists := Nat.le_trans h.lists h'.lists
  documents := Nat.le_trans h.documents h'.documents
  document id hid :=
    (h'.document id (Nat.lt_of_lt_of_le hid h.documents)).trans (h.document id hid)
  serial := Nat.le_trans h.serial h'.serial
  attributes n name hn :=
    (h'.attributes n name (Nat.lt_of_lt_of_le hn h.serial)).trans (h.attributes n name hn)

theorem of_eq (items : ∀ id, (s.list id).items <+: (s'.list id).items)
    (lists : s.lists.size ≤ s'.lists.size) (documents : s'.documents = s.documents)
    (serial : s'.serial = s.serial)
    (attributes : ∀ n name, s'.assigned? (.serial n) name = s.assigned? (.serial n) name) :
    s.Extends s' where
  items := items
  lists := lists
  documents := Nat.le_of_eq (congrArg Table.size documents.symm)
  document id _ := by rw [Store.document, Store.document, documents]
  serial := Nat.le_of_eq serial.symm
  attributes n name _ := attributes n name

theorem item {id : ListId} {k : Nat} {v : Value} (h : s.Extends s')
    (hk : (s.list id).items[k]? = some v) : (s'.list id).items[k]? = some v := by
  obtain ⟨more, heq⟩ := h.items id
  have hlt := (List.getElem?_eq_some_iff.mp hk).1
  rw [← heq, List.getElem?_append_left hlt]
  exact hk

end Extends

theorem extends_setGuard (s : Store) (lock : LockId) (g : Guard) :
    s.Extends (s.setGuard lock g) :=
  .of_eq (fun id => by simp) (by simp) (documents_setGuard ..)
    (serial_setGuard ..) fun n name => by rw [assigned?, assigned?, assigned_setGuard]

private theorem extends_assignAll {s s' : Store} (h : s.Extends s') {i : Identity}
    (hi : ∀ n, i ≠ .serial n) (attributes : List (String × Value)) :
    s.Extends (s'.assignAll i attributes) := by
  refine h.trans ?_
  have eq := assignAll_eq s' i attributes
  refine .of_eq ?_ ?_ ?_ ?_ ?_
  · intro id
    have same : ((s'.assignAll i attributes).list id).items = (s'.list id).items := by
      rw [eq]
      rfl
    exact same ▸ List.prefix_rfl
  · exact Nat.le_of_eq (by rw [eq])
  · rw [eq]
  · rw [eq]
  · intro n name
    exact assigned?_assignAll_of_ne (hi n).symm attributes name

theorem extends_insertList (s : Store) (l : GuardedList) :
    s.Extends (s.insertList l).2 := by
  refine .of_eq ?_ ?_ rfl rfl fun _ _ => rfl
  · intro id
    rw [list_insertList]
    split
    · next h =>
        have none : s.lists.get? id.index = none := by
          rw [Table.get?_eq_none_iff]
          omega
        rw [list, Table.get, none]
        exact List.nil_prefix
    · exact List.prefix_rfl
  · simp [insertList]

private theorem extends_putPart (s : Store) (node : Node) (part : Part) (l : ListId) :
    s.Extends (s.putPart node part (.object (.list l))) := by
  refine .of_eq (fun j => ?_) (Nat.le_of_eq (congrArg _ (lists_setPart ..).symm)) (documents_setPart ..)
    (serial_setPart ..) fun n name => ?_
  · have same : (s.putPart node part (.object (.list l))).list j = s.list j := list_setPart ..
    exact same ▸ List.prefix_rfl
  · rw [assigned?_putPart, if_neg]
    cases node <;> simp [Node.identity, Object.ofNode, Object.identity]

theorem extends_append (s : Store) (id : ListId) (items : List Value) :
    s.Extends (s.modifyList id (·.append items)) := by
  refine .of_eq ?_ ?_ rfl rfl fun _ _ => rfl
  · intro j
    rw [items_append_eq]
    split
    · exact List.prefix_append _ _
    · exact List.prefix_rfl
  · simp

theorem Effect.extends {w : Bool} {s s' : Store} (h : Effect w s s') : s.Extends s' := by
  cases h with
  | same => exact .refl s
  | log logging => exact .of_eq (fun _ => List.prefix_rfl) (Nat.le_refl _) rfl rfl fun _ _ => rfl
  | files _ files => exact .of_eq (fun _ => List.prefix_rfl) (Nat.le_refl _) rfl rfl fun _ _ => rfl
  | source id f => exact .of_eq (fun _ => List.prefix_rfl) (Nat.le_refl _) rfl rfl fun _ _ => rfl
  | newSource source =>
      exact .of_eq (fun _ => List.prefix_rfl) (Nat.le_refl _) rfl rfl fun _ _ => rfl
  | append id items => exact extends_append s id items
  | part node part list => exact extends_putPart s node part list
  | list l _ attributes _ =>
      exact extends_assignAll (extends_assignAll (extends_insertList s l) (by simp) attributes)
        (by simp) attributes
  | arena l _ attributes _ => exact extends_assignAll (extends_insertList s l) (by simp) attributes
  | rule r => exact .of_eq (fun _ => List.prefix_rfl) (Nat.le_refl _) rfl rfl fun _ _ => rfl
  | build b attributes _ =>
      refine extends_assignAll ?_ (by simp) attributes
      exact .of_eq (fun _ => List.prefix_rfl) (Nat.le_refl _) rfl rfl fun _ _ => rfl
  | pool p attributes _ =>
      refine extends_assignAll ?_ (by simp) attributes
      exact .of_eq (fun _ => List.prefix_rfl) (Nat.le_refl _) rfl rfl fun _ _ => rfl
  | guard g _ attributes _ =>
      refine extends_assignAll ?_ (by simp) attributes
      exact .of_eq (fun _ => List.prefix_rfl) (Nat.le_refl _) rfl rfl fun _ _ => rfl
  | serial attributes _ =>
      have eq := assignAll_eq s.nextSerial.2 (.serial s.serial) attributes
      change s.Extends (s.nextSerial.2.assignAll (.serial s.serial) attributes)
      constructor
      · intro id
        rw [eq]
        exact List.prefix_rfl
      · rw [eq]
        exact Nat.le_refl _
      · rw [eq]
        exact Nat.le_refl _
      · intro id _
        rw [eq]
        rfl
      · rw [eq]
        exact Nat.le_succ _
      · intro n name hn
        rw [assigned?_assignAll_of_ne]
        · rfl
        · simpa using Nat.ne_of_lt hn

end Store

end NinjaFile
