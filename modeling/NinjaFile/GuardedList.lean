import NinjaFile.Store

/-!
# Operations on guarded lists

Every operation enters the list's guard for one atomic step.  Items are never
replaced, moved or removed, so an index that was given out stays good.
-/

namespace NinjaFile

namespace GuardedList

/-- The item at an index; a negative one counts from the end. -/
def pick (items : List α) (i : Int) : Option α :=
  if 0 ≤ i then items[i.toNat]?
  else if 0 ≤ i + items.length then items[(i + items.length).toNat]?
  else none

def append (l : GuardedList) (items : List Value) : GuardedList :=
  { l with items := l.items ++ items }

@[simp] theorem items_append (l : GuardedList) (items : List Value) :
    (l.append items).items = l.items ++ items := rfl

@[simp] theorem guard_append (l : GuardedList) (items : List Value) :
    (l.append items).guard = l.guard := rfl

end GuardedList

namespace Value

/-- The ownership that a value is, where one is needed to make a guard. -/
def ownershipOf : Value → Except Fault Ownership
  | .ownership o => .ok o
  | v => .error (.noAttribute v.typeName "guard")

end Value

namespace Store

def listOwnership (s : Store) (id : ListId) : Value :=
  (s.assigned? (.list id) "ownership").getD (.ownership (s.list id).ownership)

def listBlocking (s : Store) (id : ListId) : Value :=
  (s.assigned? (.list id) "blocking").getD (.bool (s.list id).blocking)

end Store

namespace ListId

def make (ownership : Ownership) (blocking : Bool) (items : List Value) : Action ListId :=
  .update fun s => s.insertList (.make ownership blocking items)

/-- A list, and its guard, keep what was given for a truth value. -/
def makeWith (ownership : Ownership) (blocking : Value) (items : List Value) : Action ListId :=
  let attributes : List (String × Value) :=
    match blocking with
    | .bool _ => []
    | v => [("blocking", v)]
  .update fun s =>
    let (id, s) := s.insertList (.make ownership blocking.isTrue items)
    (id, (s.assignAll (.list id) attributes).assignAll (.guard (.list id)) attributes)

/-- Adds an item and gives its index. -/
def add (id : ListId) (item : Value) : Action Nat :=
  .guarded (.list id) .write
    (.update fun s => ((s.list id).items.length, s.modifyList id (·.append [item])))

def extend (id : ListId) (items : List Value) : Action Unit :=
  .guarded (.list id) .write (.modify fun s => s.modifyList id (·.append items))

def snapshot (id : ListId) : Action (List Value) :=
  .guarded (.list id) .read (Action.read fun s => (s.list id).items)

def length (id : ListId) : Action Nat :=
  .guarded (.list id) .read (Action.read fun s => (s.list id).items.length)

/-- A list with the same items under another ownership, this one if it already has it. -/
def adopt (id : ListId) (ownership : Value) : Action ListId := do
  let own ← Action.read fun s => s.listOwnership id
  if ownership.isSame own then return id
  else
    let items ← id.snapshot
    let blocking ← Action.read fun s => s.listBlocking id
    makeWith (← Program.ofExcept ownership.ownershipOf) blocking items

end ListId

end NinjaFile
