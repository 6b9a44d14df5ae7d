import NinjaFile.Iteration

/-!
# Subscripts

What a value has at an index or under a key.  An index of a sequence is a whole number,
and a negative one counts from the end.
-/

namespace NinjaFile

namespace Value

/-- The greatest index that any sequence could have. -/
def indexLimit : Int := 9223372036854775807

/-- The place that an index means among `n` items. -/
def place? (n : Nat) (i : Int) : Option Nat :=
  if 0 ≤ i ∧ i < n then some i.toNat
  else if 0 ≤ i + n ∧ i < 0 then some (i + n).toNat
  else none

/-- Whether a sequence with this name could have an index. -/
def checkIndex (holder : String) (i : Int) : Except Fault Unit :=
  if holder ≠ "range object " ∧ (indexLimit < i ∨ i < -indexLimit - 1) then .error .hugeIndex
  else .error (.outOfRange holder)

/-- An item of a sequence of `n` items that `get` gives by their places; `holder` is
what the sequence is called when an index is out of range. -/
def itemIn (holder typeName : String) (n : Nat) (get : Nat → Value) (index : Value) :
    Except Fault Value :=
  match index.int? with
  | none =>
      .error (.unsuitable
        (typeName ++ " indices must be integers or slices, not " ++ index.typeName))
  | some i =>
      match place? n i with
      | some place => .ok (get place)
      | none => do
          checkIndex holder i
          return .null

def listItem (items : List Value) (index : Value) : Except Fault Value :=
  itemIn "list " "list" items.length (fun place => items.getD place .null) index

end Value

namespace ListId

/-- The item at an index, which is looked at inside the guard. -/
def item (id : ListId) (index : Value) : Action Value :=
  .guarded (.list id) .read do
    Program.ofExcept (Value.listItem (← Action.read fun s => (s.list id).items) index)

end ListId

namespace Value

def textItem (s : String) (index : Value) : Except Fault Value :=
  match index.int? with
  | none =>
      .error (.unsuitable ("string indices must be integers, not '" ++ index.typeName ++ "'"))
  | some _ =>
      itemIn "string " "string" s.length
        (fun place => .text (String.ofList [s.toList.getD place ' '])) index

def bytesItem (form : ByteForm) (content : List UInt8) (index : Value) : Except Fault Value :=
  let get (place : Nat) : Value := .int (content.getD place 0).toNat
  match form with
  | .fixed => itemIn "" "byte" content.length get index
  | .growable => itemIn "bytearray " "bytearray" content.length get index
  | .window =>
      if index.int?.isNone then .error (.unsuitable "memoryview: invalid slice key")
      else itemIn "" "memoryview" content.length get index

/-- The value of a key. -/
def entryOf (entries : List (Value × Value)) (key : Value) (shown : String) : Action Value := do
  match ← Action.read fun s => unhashable? s key with
  | some typeName => .fail (.unhashable typeName)
  | none =>
      match ← Action.read fun s => entry? s key entries with
      | some v => return v
      | none => .fail (.noKey shown)

/-- What a value has at an index or a key; `shown` is the key as it is reported missing. -/
def item (v index : Value) (shown : String) : Action Value :=
  match v with
  | .object (.list id) => id.item index
  | .object (.arena arena) => arena.statements.item index
  | .list items => Program.ofExcept (listItem items index)
  | .tuple items =>
      Program.ofExcept
        (itemIn "tuple " "tuple" items.length (fun place => items.getD place .null) index)
  | .text s => Program.ofExcept (textItem s index)
  | .bytes form content => Program.ofExcept (bytesItem form content index)
  | .range start stop step =>
      Program.ofExcept
        (itemIn "range object " "range" (rangeLength start stop step) (rangeItem start step) index)
  | .mapping entries => entryOf entries index shown
  | v => .fail (.unsuitable ("'" ++ v.typeName ++ "' object is not subscriptable"))

end Value

end NinjaFile
