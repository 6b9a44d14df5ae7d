import NinjaFile.Proofs.List.Deeds
import NinjaFile.Proofs.Program.Interleaving

/-!
# Visits of a list

Calls of any number of threads on lists, and explicit holds of guards, each going on step by
step in any order.  The history of a list says who has got into its guard, what for, and
what he found the list to hold.
-/

namespace NinjaFile.History

open Program Store

/-! ## Calls -/

inductive Call where
  | use (l : ListId) (deed : ListDeed)
  /-- A guard is held until its holder goes on, and then the hold ends as is said. -/
  | hold (lock : LockId) (mode : Mode) (outcome : Except Fault Value)

def Call.program : Call → Action Value
  | .use l deed => deed.action l
  | .hold lock mode outcome => guarded lock mode (Program.ofExcept outcome)

inductive Move where
  | start (t : ThreadId) (call : Call)
  | step (i : Nat)

def next (sys : System Call) : Move → System Call
  | .start t c => sys.start t c c.program
  | .step i => sys.step i

def run (sys : System Call) (moves : List Move) : System Call := moves.foldl next sys

/-- Nothing has been called yet. -/
def idle (s : Store) : System Call := ⟨s, []⟩

/-! ## Visits -/

/-- A call that has got into the guard of a list, and what the list held then. -/
structure Visit where
  task : Nat
  mode : Mode
  found : List Value

/-- The guard that a call gets into with its next step, if that is what it does. -/
def entered? (task : Task Call) (s : Store) : Option (LockId × Mode) :=
  match task.phase.program, task.entry? s with
  | .enter lock mode _, some (.entered _) => some (lock, mode)
  | _, _ => none

/-- The visit of the list that begins with a move. -/
def visit? (l : ListId) (sys : System Call) : Move → Option Visit
  | .start .. => none
  | .step i => do
      let (lock, mode) ← entered? (← sys.tasks[i]?) sys.store
      if lock = .list l then some ⟨i, mode, (sys.store.list l).items⟩ else none

/-- The visits of a list from a system on, the oldest first. -/
def visits (l : ListId) : System Call → List Move → List Visit
  | _, [] => []
  | sys, move :: rest => (visit? l sys move).toList ++ visits l (next sys move) rest

/-! ## What is written -/

/-- The items that iterating a value gives: its own, or those that the list or the source
held when the call looked, which is its first step. -/
def taken (v : Value) (trail : List (Store × Store)) : Option (List Value) :=
  match v.items with
  | .plain items => some items
  | .list m => trail.head?.map fun step => (step.1.list m).items
  | .source id => trail.head?.map fun step => (step.1.source id).items
  | .none => none

/-- What a call is to write to a list. -/
def Call.block (l : ListId) (trail : List (Store × Store)) : Call → List Value
  | .use l' (.add v) => if l' = l then [v] else []
  | .use l' (.extend v) => if l' = l then (taken v trail).getD [] else []
  | _ => []

/-- What comes of a visit: the block of a call that is there to write. -/
def block (l : ListId) (sys : System Call) (visit : Visit) : List Value :=
  match visit.mode, sys.tasks[visit.task]? with
  | .write, some task => task.call.block l task.progress.trail
  | _, _ => []

end NinjaFile.History

namespace NinjaFile.ListDeed

open Program Store

def mode (deed : ListDeed) : Mode := if deed.writes then .write else .read

/-- Whether items are taken out of something else first, which may be the list itself. -/
def takes : ListDeed → Bool
  | .extend _ => true
  | _ => false

/-- What a deed answers for a list that holds some items.  What ownership the list has is
no matter of its items. -/
def answer (items : List Value) : ListDeed → Except Fault Value
  | .add _ => .ok (.int items.length)
  | .extend _ => .ok .null
  | .adopt _ => .ok .null
  | .snapshot => .ok (.tuple items)
  | .iterate => .ok (.list items)
  | .length => .ok (.int items.length)
  | .truth => .ok (.bool (0 < items.length))
  | .item index => Value.listItem items index

/-- What is offered for a list after some steps. -/
def Offers (deed : ListDeed) (items : List Value) (trail : List (Store × Store)) : Prop :=
  match deed with
  | .add v => items = [v]
  | .extend v => History.taken v trail = some items
  | _ => items = []

/-- What is done to a list at once. -/
def effect (l : ListId) (items : List Value) (deed : ListDeed) (s : Store) : Store :=
  if deed.writes then s.modifyList l (·.append items) else s

/-- All that is done inside the guard of a list is done at once. -/
theorem onList_eq {deed : ListDeed} (asks : deed.asksGuard) (l : ListId) {items : List Value}
    {trail : List (Store × Store)} (offers : deed.Offers items trail) :
    deed.onList l items = .enter (.list l) deed.mode fun
      | some fault => .fail (.borrow fault)
      | none => .act (deed.effect l items) fun s =>
          .leave (.list l) deed.mode (Program.ofExcept (deed.answer (s.list l).items)) := by
  cases deed with
  | adopt ownership => cases asks
  | add v =>
      obtain rfl : items = [v] := offers
      exact congrArg (enter (.list l) .write) (funext fun r => by cases r <;> rfl)
  | extend v => exact congrArg (enter (.list l) .write) (funext fun r => by cases r <;> rfl)
  | item index =>
      refine congrArg (enter (.list l) .read) (funext fun r => ?_)
      cases r with
      | some fault => rfl
      | none =>
          refine congrArg (act id) (funext fun s => ?_)
          change (attempt (Program.ofExcept (Value.listItem (s.list l).items index))).bind _ =
            leave (.list l) .read (Program.ofExcept (Value.listItem (s.list l).items index))
          cases Value.listItem (s.list l).items index <;> rfl
  | _ => exact congrArg (enter (.list l) .read) (funext fun r => by cases r <;> rfl)

end NinjaFile.ListDeed

namespace NinjaFile.History

/-- The visits that a call makes for its deed.  A call that takes items may look at the list
on this occasion. -/
def visitsFor (deed : ListDeed) (i : Nat) (history : List Visit) : List Visit :=
  history.filter fun v => v.task = i ∧ (v.mode = .write ∨ deed.takes = false)

end NinjaFile.History
