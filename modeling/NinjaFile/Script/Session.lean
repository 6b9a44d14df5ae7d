import NinjaFile.Fault
import NinjaFile.Json.Token
import NinjaFile.Script.Syntax
import NinjaFile.Store

/-!
# Sessions

What a script works on: the store, the names of its objects, and the last steps
of its lazy sources.  An object is known by the first name it was given.
-/

namespace NinjaFile.Script

/-- What is said about a step: its result or its fault, the answers of the steps that it
ran, how its subject looks now, and the lines that were logged. -/
inductive Answer where
  | mk (result : Option Json) (fault : Option Fault) (during : List Answer)
      (state : Option Json) (log : List String) (each : Option (List (Json × List Answer)))
      (held : Option (List Answer)) (resumed : Option (List (List Answer)))
      (thread : Option (List Answer)) (blocked : Bool)

namespace Answer

/-- The answer with nothing in it. -/
def empty : Answer := .mk none none [] none [] none none none none false

/-- What the step failed with. -/
def fault? : Answer → Option Fault
  | .mk _ fault .. => fault

/-- The text that the step gave. -/
def text? : Answer → Option String
  | .mk (some (.text text)) .. => some text
  | _ => none

end Answer

instance : Inhabited Answer := ⟨.empty⟩

structure Session where
  store : Store
  names : List (String × Value)
  firstNames : List (Identity × String)
  bodies : List (SourceId × List Step)
  /-- Answers of threads that have not been collected. -/
  outbox : List (ThreadId × Answer)
  /-- Threads that wait for a guard, in the order in which they started. -/
  waiting : List ThreadId
  nextThread : ThreadId

instance : Guarded Session where
  guard s lock := s.store.guard lock
  setGuard s lock guard := { s with store := s.store.setGuard lock guard }

namespace Session

def ofFiles (files : FileTree) : Session := ⟨.ofFiles files, [], [], [], [], [], 1⟩

def overStore (f : Store → Store) (s : Session) : Session := { s with store := f s.store }

/-! ## Names -/

/-- What a value is known by, if it is a thing of its own. -/
def thing? : Value → Option Identity
  | .ownership _ | .kind _ => none
  | v => v.identity?

def firstName? (s : Session) (v : Value) : Option String :=
  (thing? v).bind fun i => s.firstNames.lookup i

def nameFirst (s : Session) (name : String) (v : Value) : Session :=
  match thing? v with
  | none => s
  | some i =>
      match s.firstNames.lookup i with
      | some _ => s
      | none => { s with firstNames := (i, name) :: s.firstNames }

def bind (s : Session) (name : Option String) (v : Value) : Session :=
  match name with
  | none => s
  | some name => { s.nameFirst name v with names := (name, v) :: s.names }

def lookup (s : Session) (name : String) : Except Fault Value :=
  match s.names.lookup name with
  | some v => .ok v
  | none => .error (.noKey (Text.quoted name))

/-! ## Lines and answers -/

def drainLog (s : Session) : List String × Session :=
  let (lines, logging) := s.store.logging.drain
  (lines, { s with store := { s.store with logging := logging } })

def post (s : Session) (t : ThreadId) (a : Answer) : Session :=
  { s with outbox := s.outbox ++ [(t, a)] }

/-- Takes the answers of a thread. -/
def collect (s : Session) (t : ThreadId) : List Answer × Session :=
  let (mine, others) := s.outbox.partition fun entry => entry.1 == t
  (mine.map (·.2), { s with outbox := others })

end Session

end NinjaFile.Script
