import NinjaFile.Script.Calling
import NinjaFile.Script.Evaluation
import NinjaFile.Script.Showing

/-!
# Running steps

A step becomes a program on the session.  An action of the library is lifted step
by step; where it asks for a lazy source to be ended, the last steps of that source
are run in its place.
-/

namespace NinjaFile.Script

/-- What a script asks of whoever runs it. -/
inductive Request where
  /-- Starts a thread with the given steps. -/
  | fork (t : ThreadId) (steps : List Step)
  /-- Lets waiting threads go on. -/
  | release

abbrev Routine := Program Session Request

/-- The main thread; all others are started by a script. -/
def mainThread : ThreadId := 0

/-- A library action in a session, with the answers of the steps that sources ran. -/
def lift (close : SourceId → Routine (List Answer)) :
    Action α → Routine (Except Fault α × List Answer)
  | .pure a => .pure (.ok a, [])
  | .fail fault => .pure (.error fault, [])
  | .act f next => .act (Session.overStore f) fun s => lift close (next s.store)
  | .enter lock mode next => .enter lock mode fun r => lift close (next r)
  | .leave lock mode next => .leave lock mode (lift close next)
  | .call id next => do
      let answers ← close id
      let (outcome, more) ← lift close next
      return (outcome, answers ++ more)

/-- The answer of a step with a result or a fault, and the state of its subject. -/
def finish (binds : Option String) (outcome : Except Fault Value) (during : List Answer)
    (subject : Option Value) : Routine Answer :=
  .update fun s =>
    let s := match outcome with
      | .ok v => s.bind binds v
      | .error _ => s
    let state := subject.bind s.state?
    let (log, after) := s.drainLog
    match outcome with
    | .ok v => (.mk (some (s.write v)) none during state log none none none none false, after)
    | .error fault => (.mk none (some fault) during state log none none none none false, after)

/-- The answer of a step that ran other steps. -/
def finishWith (make : List String → Option Json → Answer) (subject : Option Value) :
    Routine Answer :=
  .update fun s =>
    let state := subject.bind s.state?
    let (log, after) := s.drainLog
    (make log state, after)

def lookUp (name : String) : Routine (Except Fault Value) := .update fun s => (s.lookup name, s)

def evaluate (e : Evaluation α) : Routine (Except Fault α) := .update fun s => e.run s

/-- The guard of a value that can be held. -/
def lockOf : Value → Except Fault LockId
  | .object (.list id) => .ok (.list id)
  | .object (.arena arena) => .ok (.list arena.statements)
  | .object (.guard lock _) => .ok lock
  | v => .error (.noAttribute v.typeName "_guard")

/-! ## Deeds of the library -/

/-- Whether two values are equal, and if so whether they agree as keys. -/
def comparison (a b : Value) : Action Value := do
  let same ← Action.read fun s => Value.same s a b
  let answer (hash : Value) : Value :=
    .mapping [(.text "eq", .bool same), (.text "hash", hash)]
  if same then
    match ← Action.read fun s => Value.unhashable? s a <|> Value.unhashable? s b with
    | some typeName => .fail (.unhashable typeName)
    | none => return answer (.bool true)
  else return answer .null

def ordinalOf (v : Value) : Action Value := do (← v.kindOf).member "ordinal"

def fileContent (path : String) : Action Value := do
  let content ← Program.ofExcept (← Action.read fun s => s.fileBytes (.ofString path))
  return .text (← Program.ofExcept (Value.decodeBytes content))

/-- What a deed without steps of its own does; it is an action of the library. -/
def Deed.action : Deed → Evaluation (Action Value)
  | .make c args named => do
      let (args, named) ← evaluateArguments args named
      return c.make args named
  | .call on method args named => do
      let v ← Evaluation.named on
      let (args, named) ← evaluateArguments args named
      return invoke v method args named
  | .get on name => do return memberOf (← Evaluation.named on) name
  | .set on name e => do
      let owner ← Evaluation.named on
      let v ← e.evaluate
      return do
        assignMember owner name v
        return .null
  | .compare a b => do
      let a ← a.evaluate
      return comparison a (← b.evaluate)
  | .ordinal on => do return ordinalOf (← Evaluation.named on)
  | .load path => return fileContent path
  | _ => return .fail .notImplemented

/-- The object whose state is shown after a deed, besides one that is made. -/
def Deed.subject? : Deed → Option String
  | .call on .. | .set on .. => some on
  | _ => none

def Deed.makes : Deed → Bool
  | .make .. => true
  | _ => false

/-- Does a deed without steps of its own. -/
def runDeed (close : SourceId → Routine (List Answer)) (binds : Option String) (deed : Deed) :
    Routine Answer := do
  let subject ←
    match deed.subject? with
    | some on => do pure (← lookUp on).toOption
    | none => pure none
  match ← evaluate deed.action with
  | .error fault => finish binds (.error fault) [] subject
  | .ok action =>
      let (outcome, during) ← lift close action
      finish binds outcome during (if deed.makes then outcome.toOption else subject)

/-! ## Deeds with steps -/

/-- Runs a routine for every item. -/
def forEach (f : Value → Routine β) : List Value → Routine (List β)
  | [] => return []
  | v :: rest => do
      let first ← f v
      return first :: (← forEach f rest)

/-- Lets the waiting threads go on and gives what they answered, if there are any. -/
def releaseThreads : Routine (Option (List (List Answer))) := do
  let waiting ← .update fun s => (s.waiting, s)
  if waiting = [] then return none
  else
    .request .release
    return some (← .update fun s => collectAll waiting s)
where
  collectAll : List ThreadId → Session → List (List Answer) × Session
    | [], s => ([], s)
    | t :: rest, s =>
        let (mine, s) := s.collect t
        let (others, s) := collectAll rest s
        (mine :: others, s)

mutual

/-- Runs a step of thread `t`. -/
def runStep (close : SourceId → Routine (List Answer)) (t : ThreadId) : Step → Routine Answer
  | .mk binds deed =>
      match deed with
      | .each on steps => do
          match ← lookUp on with
          | .error fault => finish binds (.error fault) [] none
          | .ok v =>
              let (outcome, during) ← lift close v.iterate
              match outcome with
              | .error fault =>
                  finishWith
                    (fun log _ =>
                      .mk none (some fault) during none log (some []) none none none false)
                    none
              | .ok items =>
                  let parts ← forEach (fun item => do
                    let shown ← .update fun s => (s.write item, s)
                    return (shown, ← runSteps close t steps)) items
                  finishWith
                    (fun log _ => .mk none none during none log (some parts) none none none false)
                    none
      | .hold on mode steps raises => do
          let subject ← lookUp on
          match subject.bind lockOf with
          | .error fault => finish binds (.error fault) [] subject.toOption
          | .ok lock =>
              .enter lock mode fun
                | some fault => finish binds (.error (.borrow fault)) [] subject.toOption
                | none => do
                    let held ← runSteps close t steps
                    .leave lock mode (.pure ())
                    let resumed ← if t = mainThread then releaseThreads else pure none
                    finishWith
                      (fun log state =>
                        .mk none (raises.map .raised) [] state log none (some held) resumed none
                          false)
                      subject.toOption
      | .fork steps => do
          let child ← .update fun s =>
            (s.nextThread, { s with nextThread := s.nextThread + 1 })
          .request (.fork child steps)
          let (answers, blocked) ← .update fun s =>
            let (answers, after) := s.collect child
            ((answers, s.waiting.contains child), after)
          finishWith
            (fun log _ => .mk none none [] none log none none none (some answers) blocked) none
      | deed => runDeed close binds deed

def runSteps (close : SourceId → Routine (List Answer)) (t : ThreadId) :
    List Step → Routine (List Answer)
  | [] => return []
  | step :: rest => do
      let first ← runStep close t step
      return first :: (← runSteps close t rest)

end

/-- Runs the last steps of a source.  Sources that end each other can be nested at
most `depth` deep. -/
def closeSource : Nat → ThreadId → SourceId → Routine (List Answer)
  | 0, _, _ => return []
  | depth + 1, t, id => do
      let body ← .update fun s => ((s.bodies.lookup id).getD [], s)
      runSteps (closeSource depth t) t body

def sourceDepth : Nat := 1000

/-- The steps of a thread one after the other, each answer posted when it is there. -/
def thread (t : ThreadId) : List Step → Routine Unit
  | [] => return ()
  | step :: rest => do
      let answer ← runStep (closeSource sourceDepth t) t step
      .modify fun s => s.post t answer
      thread t rest

end NinjaFile.Script
