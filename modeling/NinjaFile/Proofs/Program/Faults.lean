import NinjaFile.Document
import NinjaFile.Script.Parameter

/-!
# Faults for want of a guard

Only a guard that is refused makes for a fault that says so.  Conversions, comparisons and
whatever else is computed without a guard fail for other reasons.
-/

namespace NinjaFile

/-- A guard was refused. -/
def Fault.isBorrow : Fault → Bool
  | .borrow _ => true
  | _ => false

theorem Fault.isBorrow_eq_false {fault : Fault} (h : ∀ b, fault ≠ .borrow b) :
    fault.isBorrow = false := by
  cases fault with
  | borrow b => exact absurd rfl (h b)
  | _ => rfl

/-- An outcome that is not for want of a guard. -/
def Granted {α : Type} (r : Except Fault α) : Prop :=
  ∀ fault, r = .error fault → fault.isBorrow = false

section Outcomes

variable {α β : Type}

@[grind ←] theorem granted_ok (a : α) : Granted (.ok a) := by
  rintro _ ⟨⟩

theorem granted_error {fault : Fault} (h : fault.isBorrow = false) :
    Granted (.error fault : Except Fault α) := by
  rintro _ ⟨⟩
  exact h

theorem granted_bind {r : Except Fault α} {k : α → Except Fault β} (hr : Granted r)
    (hk : ∀ a, Granted (k a)) : Granted (r >>= k) := by
  cases r with
  | ok a => exact hk a
  | error fault => exact granted_error (hr fault rfl)

end Outcomes

namespace Value

/-! ## Conversions -/

@[grind ←] theorem granted_decodeBytes (content : List UInt8) : Granted (decodeBytes content) := by
  rw [decodeBytes]
  split
  · exact granted_ok _
  · exact granted_error rfl

@[grind ←] theorem granted_toArgument (v : Value) : Granted v.toArgument := by
  rw [toArgument.eq_def]
  split <;> first | exact granted_ok _ | exact granted_decodeBytes _ | exact granted_error rfl

@[grind ←] theorem granted_toArguments (items : List Value) : Granted (toArguments items) := by
  induction items with
  | nil => exact granted_ok _
  | cons v rest ih =>
      exact granted_bind (granted_toArgument v) fun _ => granted_bind ih fun _ => granted_ok _

theorem isBorrow_takeArguments {items rest : List Value} {texts : List String} {fault : Fault}
    (h : takeArguments items = (texts, some (fault, rest))) : fault.isBorrow = false := by
  induction items generalizing texts with
  | nil => cases h
  | cons v more ih =>
      rw [takeArguments] at h
      split at h
      · next other hv =>
          cases h
          exact granted_toArgument v _ hv
      · next text hv =>
          cases htake : takeArguments more with
          | mk taken stop =>
              rw [htake] at h
              cases h
              exact ih htake

@[grind ←] theorem granted_ownershipOf (v : Value) : Granted v.ownershipOf := by
  rw [ownershipOf.eq_def]
  split
  · exact granted_ok _
  · exact granted_error rfl

@[grind ←] theorem granted_toExtend (v : Value) : Granted v.toExtend := by
  rw [toExtend.eq_def]
  split
  · exact granted_ok _
  · exact granted_error rfl

@[grind ←] theorem granted_toPath (v : Value) : Granted v.toPath := by
  rw [toPath.eq_def]
  split <;> first | exact granted_ok _ | exact granted_error rfl

@[grind ←] theorem granted_logger? (v : Value) (member : String) : Granted (v.logger? member) := by
  rw [logger?.eq_def]
  split <;> first | exact granted_ok _ | exact granted_error rfl

/-! ## Order -/

@[grind ←] theorem granted_atLeast (a b : Value) : Granted (a.atLeast b) := by
  rw [atLeast.eq_def]
  split
  · exact granted_ok _
  · exact granted_ok _
  · split
    · exact granted_ok _
    · exact granted_error rfl

@[grind ←] theorem granted_exceeds (a b : Value) : Granted (a.exceeds b) := by
  rw [exceeds.eq_def]
  split
  · exact granted_ok _
  · exact granted_ok _
  · split
    · exact granted_ok _
    · exact granted_error rfl

/-! ## Items -/

@[grind ←] theorem granted_itemIn (holder typeName : String) (n : Nat) (get : Nat → Value)
    (index : Value) : Granted (itemIn holder typeName n get index) := by
  rw [itemIn]
  split
  · exact granted_error rfl
  · split
    · exact granted_ok _
    · refine granted_bind ?_ fun _ => granted_ok _
      rw [checkIndex]
      split <;> exact granted_error rfl

@[grind ←] theorem granted_listItem (items : List Value) (index : Value) :
    Granted (listItem items index) := granted_itemIn _ _ _ _ _

@[grind ←] theorem granted_textItem (s : String) (index : Value) : Granted (textItem s index) := by
  rw [textItem]
  split
  · exact granted_error rfl
  · exact granted_itemIn _ _ _ _ _

@[grind ←] theorem granted_bytesItem (form : ByteForm) (content : List UInt8) (index : Value) :
    Granted (bytesItem form content index) := by
  rw [bytesItem.eq_def]
  split
  · exact granted_itemIn _ _ _ _ _
  · exact granted_itemIn _ _ _ _ _
  · split
    · exact granted_error rfl
    · exact granted_itemIn _ _ _ _ _

/-! ## Words -/

@[grind ←] theorem granted_checkWords (words : List Value) : Granted (checkWords words) := by
  rw [checkWords]
  split
  · exact granted_ok _
  · exact granted_error rfl

@[grind ←] theorem granted_paths (ruleName : Value) (lists : Slots (List Value)) :
    Granted (paths ruleName lists) :=
  granted_bind (granted_checkWords _) fun _ =>
    granted_bind (granted_checkWords _) fun _ => granted_ok _

end Value

@[grind ←] theorem View.granted_showsLess (own : Whole) (level : Value) :
    Granted (View.showsLess own level) := by
  rw [View.showsLess]
  split
  · exact granted_ok _
  · exact Value.granted_exceeds _ _

namespace Store

@[grind ←] theorem granted_fileBytes (s : Store) (path : Text.Path) :
    Granted (s.fileBytes path) := by
  rw [fileBytes]
  split
  · exact granted_error rfl
  · exact granted_ok _

@[grind ←] theorem granted_saveText (s : Store) (path : Text.Path) (content : String) :
    Granted (s.saveText path content).1 := by
  rw [saveText]
  split
  · exact granted_error rfl
  · exact granted_ok _

end Store

namespace Script.Callable

theorem isBorrow_namedFault? {c : Callable} {given : Nat} {named : List (String × Value)}
    {fault : Fault} (h : c.namedFault? given named = some fault) : fault.isBorrow = false := by
  rw [namedFault?] at h
  obtain ⟨entry, -, hentry⟩ := List.exists_of_findSome?_eq_some h
  dsimp only at hentry
  split at hentry
  · cases hentry
    rfl
  · split at hentry <;> cases hentry
    rfl

@[grind ←] theorem granted_bind (c : Callable) (args : List Value)
    (named : List (String × Value)) : Granted (c.bind args named) := by
  rw [bind]
  split
  · next fault hfault => exact granted_error (isBorrow_namedFault? hfault)
  · split
    · exact granted_error rfl
    · dsimp only
      split
      · exact granted_ok _
      · exact granted_error rfl

end Script.Callable

end NinjaFile
