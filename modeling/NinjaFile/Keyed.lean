/-!
# Keyed lists

Values under keys, in the order in which their keys first came up.
-/

namespace NinjaFile

/-- Replaces the value of a key, or adds it at the end. -/
def setKey [DecidableEq κ] (key : κ) (a : α) : List (κ × α) → List (κ × α)
  | [] => [(key, a)]
  | (k, b) :: rest => if k = key then (key, a) :: rest else (k, b) :: setKey key a rest

theorem lookup_setKey [DecidableEq κ] [BEq κ] [LawfulBEq κ] (key other : κ) (a : α) (entries : List (κ × α)) :
    (setKey key a entries).lookup other =
      if other = key then some a else entries.lookup other := by
  induction entries with
  | nil =>
      rw [setKey, List.lookup_cons]
      by_cases h : other = key
      · simp [h]
      · simp [h, beq_eq_false_iff_ne.2 h]
  | cons head rest ih =>
      obtain ⟨k, b⟩ := head
      rw [setKey]
      by_cases h : k = key
      · subst h
        rw [if_pos rfl, List.lookup_cons, List.lookup_cons]
        by_cases h' : other = k
        · simp [h']
        · simp [h', beq_eq_false_iff_ne.2 h']
      · rw [if_neg h, List.lookup_cons, List.lookup_cons, ih]
        by_cases h' : other = k
        · subst h'
          simp [h]
        · simp [beq_eq_false_iff_ne.2 h']

/-- Takes a key and its value away. -/
def dropKey [DecidableEq κ] (key : κ) (entries : List (κ × α)) : List (κ × α) :=
  entries.filter fun e => e.1 ≠ key

end NinjaFile
