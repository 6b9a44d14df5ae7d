/-!
# Tables

A table numbers what is put into it.  An entry can be replaced, never removed, so
its number stays good.
-/

namespace NinjaFile

structure Table (α : Type) where
  entries : Array α

namespace Table

def empty : Table α := ⟨#[]⟩

def size (t : Table α) : Nat := t.entries.size

def get? (t : Table α) (i : Nat) : Option α := t.entries[i]?

def get [Inhabited α] (t : Table α) (i : Nat) : α := (t.get? i).getD default

/-- The new entry gets the number `t.size`. -/
def insert (t : Table α) (a : α) : Table α := ⟨t.entries.push a⟩

def modify (t : Table α) (i : Nat) (f : α → α) : Table α := ⟨t.entries.modify i f⟩

@[simp] theorem get?_empty (i : Nat) : (empty : Table α).get? i = none := by
  simp [empty, get?]

@[simp] theorem size_insert (t : Table α) (a : α) : (t.insert a).size = t.size + 1 := by
  simp [size, insert]

theorem get?_insert (t : Table α) (a : α) (i : Nat) :
    (t.insert a).get? i = if i = t.size then some a else t.get? i := by
  by_cases h : i = t.entries.size <;> simp [get?, insert, size, Array.getElem?_push, h]

@[simp] theorem size_modify (t : Table α) (i : Nat) (f : α → α) :
    (t.modify i f).size = t.size := by
  simp [size, modify]

theorem get?_modify (t : Table α) (i j : Nat) (f : α → α) :
    (t.modify i f).get? j = if i = j then (t.get? j).map f else t.get? j := by
  simp [get?, modify, Array.getElem?_modify]

theorem get?_eq_none_iff (t : Table α) (i : Nat) : t.get? i = none ↔ t.size ≤ i := by
  simp [get?, size]

end Table

end NinjaFile
