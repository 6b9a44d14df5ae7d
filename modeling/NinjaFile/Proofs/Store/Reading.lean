import NinjaFile.Attribute

/-!
# Reading a store after a change

What each operation on a store changes, and what it leaves as it was.
-/

namespace NinjaFile

namespace Table

variable {α : Type} [Inhabited α]

theorem get_insert (t : Table α) (a : α) (i : Nat) :
    (t.insert a).get i = if i = t.size then a else t.get i := by
  rw [get, get, get?_insert]
  split <;> rfl

theorem get_modify (t : Table α) (i j : Nat) (f : α → α) :
    (t.modify i f).get j = if i = j ∧ j < t.size then f (t.get j) else t.get j := by
  rw [get, get, get?_modify]
  by_cases hij : i = j
  · by_cases hj : j < t.size
    · have : t.get? j ≠ none := by
        rw [ne_eq, get?_eq_none_iff]
        omega
      cases hget : t.get? j with
      | none => contradiction
      | some a => simp [hij, hj]
    · have : t.get? j = none := (get?_eq_none_iff t j).mpr (by omega)
      simp [hij, hj, this]
  · simp [hij]

end Table

theorem lookup_dropKey {κ α : Type} [DecidableEq κ] [BEq κ] [LawfulBEq κ] (key other : κ)
    (entries : List (κ × α)) :
    (dropKey key entries).lookup other = if other = key then none else entries.lookup other := by
  induction entries with
  | nil => simp [dropKey]
  | cons head rest ih =>
      obtain ⟨k, b⟩ := head
      rw [dropKey] at ih ⊢
      by_cases hk : k = key
      · subst hk
        simp only [List.filter_cons, ne_eq, not_true_eq_false, decide_false, Bool.false_eq_true,
          if_false, ih, List.lookup_cons]
        by_cases ho : other = k
        · simp [ho]
        · simp [ho, beq_eq_false_iff_ne.2 ho]
      · simp only [List.filter_cons, ne_eq, hk, not_false_eq_true, decide_true, if_true,
          List.lookup_cons, ih]
        by_cases ho : other = k
        · subst ho
          simp [hk]
        · simp [beq_eq_false_iff_ne.2 ho]

theorem dropKey_of_lookup {κ α : Type} [DecidableEq κ] [BEq κ] [LawfulBEq κ] {key : κ}
    {entries : List (κ × α)} (h : entries.lookup key = none) : dropKey key entries = entries := by
  rw [dropKey, List.filter_eq_self]
  intro entry hmem
  rw [List.lookup_eq_none_iff] at h
  have := h entry hmem
  simp only [decide_eq_true_eq]
  rintro rfl
  simp at this

namespace Store

/-! ## Lists -/

theorem list_modifyList (s : Store) (id j : ListId) (f : GuardedList → GuardedList) :
    (s.modifyList id f).list j =
      if id = j ∧ j.index < s.lists.size then f (s.list j) else s.list j := by
  obtain ⟨i⟩ := id
  obtain ⟨j⟩ := j
  simpa [list, modifyList] using Table.get_modify s.lists i j f

theorem list_insertList (s : Store) (l : GuardedList) (j : ListId) :
    (s.insertList l).2.list j = if j.index = s.lists.size then l else s.list j :=
  Table.get_insert s.lists l j.index

@[simp] theorem size_modifyList (s : Store) (id : ListId) (f : GuardedList → GuardedList) :
    (s.modifyList id f).lists.size = s.lists.size :=
  Table.size_modify _ _ _

theorem items_append_eq (s : Store) (id j : ListId) (items : List Value) :
    ((s.modifyList id (·.append items)).list j).items =
      if id = j ∧ j.index < s.lists.size then (s.list j).items ++ items
      else (s.list j).items := by
  rw [list_modifyList]
  split <;> rfl

/-! ## Guards -/

theorem list_setGuard (s : Store) (lock : LockId) (g : Guard) (j : ListId) :
    (s.setGuard lock g).list j =
      if lock = .list j ∧ j.index < s.lists.size then { s.list j with guard := g }
      else s.list j := by
  cases lock with
  | list id =>
      rw [setGuard, list_modifyList]
      simp
  | free id => simp [setGuard, list]

@[simp] theorem items_setGuard (s : Store) (lock : LockId) (g : Guard) (j : ListId) :
    ((s.setGuard lock g).list j).items = (s.list j).items := by
  rw [list_setGuard]
  split <;> rfl

@[simp] theorem ownership_setGuard (s : Store) (lock : LockId) (g : Guard) (j : ListId) :
    ((s.setGuard lock g).list j).ownership = (s.list j).ownership := by
  rw [list_setGuard]
  split <;> rfl

@[simp] theorem size_setGuard (s : Store) (lock : LockId) (g : Guard) :
    (s.setGuard lock g).lists.size = s.lists.size := by
  cases lock with
  | list id => exact size_modifyList ..
  | free id => rfl

@[simp] theorem serial_setGuard (s : Store) (lock : LockId) (g : Guard) :
    (s.setGuard lock g).serial = s.serial := by
  cases lock <;> rfl

@[simp] theorem assigned_setGuard (s : Store) (lock : LockId) (g : Guard) :
    (s.setGuard lock g).assigned = s.assigned := by
  cases lock <;> rfl

@[simp] theorem documents_setGuard (s : Store) (lock : LockId) (g : Guard) :
    (s.setGuard lock g).documents = s.documents := by
  cases lock <;> rfl

/-! ## Assignments -/

theorem assigned?_unassign (s : Store) (i j : Identity) (name other : String) :
    (s.unassign i name).assigned? j other =
      if (j, other) = (i, name) then none else s.assigned? j other :=
  lookup_dropKey (i, name) (j, other) s.assigned

theorem assigned?_assignAll_of_ne {s : Store} {i j : Identity} (h : j ≠ i)
    (attributes : List (String × Value)) (name : String) :
    (s.assignAll i attributes).assigned? j name = s.assigned? j name := by
  induction attributes generalizing s with
  | nil => rfl
  | cons head rest ih =>
      have : (s.assign i head.1 head.2).assigned? j name = s.assigned? j name := by
        rw [assigned?_assign]
        simp [h]
      rw [← this]
      exact ih

theorem assigned?_assignAll {s : Store} (i j : Identity) (attributes : List (String × Value))
    (name : String) :
    (s.assignAll i attributes).assigned? j name = s.assigned? j name ∨
      ∃ v, (name, v) ∈ attributes ∧ (s.assignAll i attributes).assigned? j name = some v := by
  induction attributes generalizing s with
  | nil => exact .inl rfl
  | cons head rest ih =>
      obtain ⟨other, w⟩ := head
      rcases ih (s := s.assign i other w) with hsame | ⟨v, hv, heq⟩
      · change ((s.assign i other w).assignAll i rest).assigned? j name = _ ∨ _
        rw [hsame, assigned?_assign]
        by_cases hkey : (j, name) = (i, other)
        · refine .inr ⟨w, ?_, ?_⟩
          · simp [(Prod.mk.inj hkey).2]
          · change ((s.assign i other w).assignAll i rest).assigned? j name = some w
            rw [hsame, assigned?_assign, if_pos hkey]
        · rw [if_neg hkey]
          exact .inl rfl
      · exact .inr ⟨v, List.mem_cons_of_mem _ hv, heq⟩

theorem assignAll_eq (s : Store) (i : Identity) (attributes : List (String × Value)) :
    s.assignAll i attributes = { s with assigned := (s.assignAll i attributes).assigned } := by
  induction attributes generalizing s with
  | nil => rfl
  | cons head rest ih => exact ih (s := s.assign i head.1 head.2)

/-! ## Parts of nodes -/

section

variable (s : Store) (n : Node) (q : Part) (l : ListId)

theorem setPart_eq :
    s.setPart n q l = { s with
      rules := (s.setPart n q l).rules
      builds := (s.setPart n q l).builds
      pools := (s.setPart n q l).pools } := by
  cases n <;> cases q <;> rfl

@[simp] theorem lists_setPart : (s.setPart n q l).lists = s.lists := by rw [setPart_eq]

@[simp] theorem list_setPart (j : ListId) : (s.setPart n q l).list j = s.list j := by
  rw [list, list, lists_setPart]

@[simp] theorem documents_setPart : (s.setPart n q l).documents = s.documents := by rw [setPart_eq]

@[simp] theorem assigned_setPart : (s.setPart n q l).assigned = s.assigned := by rw [setPart_eq]

@[simp] theorem serial_setPart : (s.setPart n q l).serial = s.serial := by rw [setPart_eq]

theorem assigned?_putPart (i : Identity) (name : String) :
    (s.putPart n q (.object (.list l))).assigned? i name =
      if (i, name) = (n.identity, q.name) then none else s.assigned? i name := by
  refine (assigned?_unassign _ _ _ _ _).trans ?_
  rw [assigned?, assigned_setPart, ← assigned?]

end

end Store

theorem Value.stored?_object (s : Store) (o : Object) (name : String) :
    (Value.object o).stored? s name = (s.assigned? o.identity name).or (o.field? s name) := by
  cases h : s.assigned? o.identity name <;>
    simp [Value.stored?, Value.identity?, Value.field?, h]

end NinjaFile
