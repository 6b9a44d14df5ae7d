import NinjaFile.Ownership

/-!
# Guards

A guard decides who may use a list.  The cooperative guard of a single owner
holds one flag and refuses overlapping use.  The lock of a shared list counts
the readers of each thread, admits one writer when there are none, and keeps
the threads that wait; leaving it notifies every one of them.

Entering is one atomic step.  A thread that has to wait enters again with
`recheck` after it has been notified.
-/

namespace NinjaFile

structure Waiter where
  thread : ThreadId
  mode : Mode
  notified : Bool
deriving DecidableEq, Repr

structure Lock where
  /-- Whether a writer waits for another writer or is refused. -/
  blocking : Bool
  writer : Option ThreadId
  /-- How many reads each reading thread has open. -/
  readers : List (ThreadId × Nat)
  waiting : List Waiter
deriving DecidableEq, Repr

inductive Guard where
  | cooperative (writing : Bool)
  | locking (lock : Lock)
deriving DecidableEq, Repr

/-- The outcome of one attempt to enter. -/
inductive Entry (α : Type) where
  | entered (guard : α)
  | refused (fault : BorrowFault) (guard : α)
  | waits (guard : α)
deriving Repr

namespace Entry

def map (f : α → β) : Entry α → Entry β
  | .entered a => .entered (f a)
  | .refused fault a => .refused fault (f a)
  | .waits a => .waits (f a)

end Entry

namespace Lock

def free (blocking : Bool) : Lock := ⟨blocking, none, [], []⟩

/-- How many reads a thread has open. -/
def held (lock : Lock) (t : ThreadId) : Nat :=
  match lock.readers.lookup t with
  | none => 0
  | some n => n

/-- One more read of a thread. -/
def addReader (t : ThreadId) : List (ThreadId × Nat) → List (ThreadId × Nat)
  | [] => [(t, 1)]
  | (u, n) :: rest => if u = t then (u, n + 1) :: rest else (u, n) :: addReader t rest

/-- One read less of a thread; its last one takes its entry away. -/
def dropReader (t : ThreadId) : List (ThreadId × Nat) → List (ThreadId × Nat)
  | [] => []
  | (u, n) :: rest =>
      if u = t then (if n ≤ 1 then rest else (u, n - 1) :: rest)
      else (u, n) :: dropReader t rest

def withoutWaiter (lock : Lock) (t : ThreadId) : Lock :=
  { lock with waiting := lock.waiting.filter fun w => w.thread ≠ t }

def notifyAll (lock : Lock) : Lock :=
  { lock with waiting := lock.waiting.map fun w => { w with notified := true } }

def wait (lock : Lock) (t : ThreadId) (mode : Mode) : Lock :=
  { lock with waiting := (lock.withoutWaiter t).waiting ++ [⟨t, mode, false⟩] }

/-- Enters as soon as nothing stands in the way; run again after each notification. -/
def recheck (lock : Lock) (t : ThreadId) : Mode → Entry Lock
  | .write =>
      if lock.writer.isSome && !lock.blocking then .refused .writtenElsewhere (lock.withoutWaiter t)
      else if lock.writer.isSome || !lock.readers.isEmpty then .waits (lock.wait t .write)
      else .entered { lock.withoutWaiter t with writer := some t }
  | .read =>
      if lock.writer.isSome then .waits (lock.wait t .read)
      else .entered { lock.withoutWaiter t with readers := addReader t lock.readers }

/-- The first attempt also refuses what the thread would wait for in vain. -/
def request (lock : Lock) (t : ThreadId) (mode : Mode) : Entry Lock :=
  match mode with
  | .write =>
      if lock.writer = some t ∨ 0 < lock.held t then .refused (.heldByThread .write) lock
      else lock.recheck t .write
  | .read =>
      if lock.writer = some t then .refused (.heldByThread .read) lock
      else lock.recheck t .read

def leave (lock : Lock) (t : ThreadId) : Mode → Lock
  | .write => { lock with writer := none }.notifyAll
  | .read => { lock with readers := dropReader t lock.readers }.notifyAll

def isNotified (lock : Lock) (t : ThreadId) : Bool :=
  lock.waiting.any fun w => w.thread == t && w.notified

end Lock

namespace Guard

def isLocking : Guard → Bool
  | .cooperative _ => false
  | .locking _ => true

def setBlocking (blocking : Bool) : Guard → Guard
  | .cooperative writing => .cooperative writing
  | .locking lock => .locking { lock with blocking := blocking }

def isBlocking : Guard → Bool
  | .cooperative _ => false
  | .locking lock => lock.blocking

def ofOwnership (ownership : Ownership) (blocking : Bool) : Guard :=
  match ownership with
  | .single => .cooperative false
  | .shared => .locking (.free blocking)

def request (guard : Guard) (t : ThreadId) (mode : Mode) : Entry Guard :=
  match guard, mode with
  | .cooperative true, .write => .refused .writeInWrite guard
  | .cooperative true, .read => .refused .readInWrite guard
  | .cooperative false, .write => .entered (.cooperative true)
  | .cooperative false, .read => .entered (.cooperative false)
  | .locking lock, mode => (lock.request t mode).map .locking

/-- Nobody ever waits for a cooperative guard. -/
def recheck (guard : Guard) (t : ThreadId) (mode : Mode) : Entry Guard :=
  match guard with
  | .cooperative _ => guard.request t mode
  | .locking lock => (lock.recheck t mode).map .locking

def leave (guard : Guard) (t : ThreadId) (mode : Mode) : Guard :=
  match guard, mode with
  | .cooperative _, .write => .cooperative false
  | .cooperative writing, .read => .cooperative writing
  | .locking lock, mode => .locking (lock.leave t mode)

def isNotified (guard : Guard) (t : ThreadId) : Bool :=
  match guard with
  | .cooperative _ => false
  | .locking lock => lock.isNotified t

end Guard

end NinjaFile
