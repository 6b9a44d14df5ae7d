import NinjaFile.Script.Interpreter

/-!
# Running scripts

One thread runs at a time, until it ends or has to wait for a guard.  The main
thread goes on after starting another; waiting threads that have been notified go
on when the main thread releases them, in the order in which they started, until
none of them can.
-/

namespace NinjaFile.Script

/-- A thread that waits for a guard, with what it does after. -/
structure Task where
  thread : ThreadId
  lock : LockId
  mode : Mode
  next : Option BorrowFault → Routine Unit

/-- A session with its waiting threads, in the order in which they started. -/
abbrev Machine := Session × List Task

abbrev Serve := Request → Machine → Machine

def insertTask (task : Task) : List Task → List Task
  | [] => [task]
  | other :: rest =>
      if task.thread < other.thread then task :: other :: rest
      else if task.thread = other.thread then task :: rest
      else other :: insertTask task rest

/-- Keeps a thread that waits and forgets one that has ended. -/
def settle (t : ThreadId) (pause : Program.Pause Session Request Unit) (m : Machine) : Machine :=
  let (s, tasks) := m
  let tasks :=
    match pause with
    | .waiting lock mode next => insertTask ⟨t, lock, mode, next⟩ tasks
    | _ => tasks.filter fun task => task.thread ≠ t
  ({ s with waiting := tasks.map (·.thread) }, tasks)

def isNotified (m : Machine) (task : Task) : Bool :=
  (m.1.store.guard task.lock).isNotified task.thread

def resumeTask (serve : Serve) (m : Machine) (task : Task) : Machine :=
  if isNotified m task then
    let (pause, m) := Program.resume task.thread serve task.lock task.mode task.next m
    settle task.thread pause m
  else m

/-- Goes through the waiting threads until none of them has been notified. -/
def release (serve : Serve) : Nat → Machine → Machine
  | 0, m => m
  | fuel + 1, m =>
      if m.2.any (isNotified m) then release serve fuel (m.2.foldl (resumeTask serve) m) else m

def releaseLimit : Nat := 1000

/-- Serves the requests of threads that are started at most `depth` deep. -/
def serve : Nat → Serve
  | 0, _, m => m
  | depth + 1, .fork t steps, m =>
      let (pause, m) := (thread t steps).run t (serve depth) m
      settle t pause m
  | depth + 1, .release, m => release (serve depth) releaseLimit m

def threadDepth : Nat := 100

/-- Runs a script with nothing but the given files and gives the answers of its steps. -/
def run (steps : List Step) (files : FileTree) : List Answer :=
  let (_, (s, _)) :=
    (thread mainThread steps).run mainThread (serve threadDepth) (Session.ofFiles files, [])
  (s.collect mainThread).1

end NinjaFile.Script
