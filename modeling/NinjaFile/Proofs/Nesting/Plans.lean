import NinjaFile.Proofs.List.Deeds
import NinjaFile.Proofs.Program.Finishing

/-!
# Nested use of guards

A plan is what one thread does with lists and guards: it calls methods of lists, it does
things inside guards, to any depth, and each time it goes on as it likes from how the last
thing has ended.  Where a method takes the items of a lazy source, that source can have
steps of its own, which are a plan again.

A plan is run as it stands, and it is run with a record of every attempt to do something;
the record changes nothing else.
-/

namespace NinjaFile

open Program Store

/-- What a thread does, and how it goes on from each outcome. -/
inductive Plan where
  | finish (outcome : Except Fault Value)
  /-- A method of a list; `during` are the last steps of a source that it takes items from. -/
  | use (l : ListId) (deed : ListDeed) (during : Plan) (next : Except Fault Value → Plan)
  /-- A plan inside a guard, if the guard is not refused. -/
  | hold (lock : LockId) (mode : Mode) (body : Plan) (next : Except Fault Value → Plan)

/-- What was attempted: to enter a guard, or a method of a list. -/
inductive Aim where
  | hold (lock : LockId) (mode : Mode)
  | use (l : ListId) (deed : ListDeed)

namespace Aim

def lock : Aim → LockId
  | .hold lock _ => lock
  | .use l _ => .list l

def asksGuard : Aim → Bool
  | .hold .. => true
  | .use _ deed => deed.asksGuard

end Aim

structure Attempt where
  /-- The guards that the plan is in, the last one entered first. -/
  opened : List (LockId × Mode)
  aim : Aim
  /-- The items that were to be written. -/
  offered : Except Fault (List Value)
  outcome : Except Fault Value

namespace Attempt

/-- What a list has got of an attempt. -/
def written (l : ListId) (a : Attempt) : List Value :=
  match a.aim, a.offered, a.outcome with
  | .use l' deed, .ok items, .ok _ => if deed.writes ∧ l' = l then items else []
  | _, _, _ => []

/-- The attempt was refused, unless it came to nothing before the guard was asked for. -/
def Barred (a : Attempt) : Prop :=
  match a.offered with
  | .ok _ => ∃ fault, a.outcome = .error (.borrow fault)
  | .error fault => a.outcome = .error fault

end Attempt

/-- What a list has got of a number of attempts, one after the other. -/
def written (l : ListId) (log : List Attempt) : List Value := log.flatMap (·.written l)

namespace Plan

/-- What the plan does. -/
def action : Plan → Action Value
  | .finish outcome => Program.ofExcept outcome
  | .use l deed during next => do
      (next (← ((deed.action l).serving during.action).attempt)).action
  | .hold lock mode body next => do
      (next (← (guarded lock mode body.action).attempt)).action

/-- Goes on behind what is already in the record. -/
def behind (log : List Attempt) (p : Action (Except Fault Value × List Attempt)) :
    Action (Except Fault Value × List Attempt) := do
  let (outcome, more) ← p
  return (outcome, log ++ more)

/-- A method of a list with a record of it; first come the attempts of a source. -/
def attemptUse (opened : List (LockId × Mode)) (l : ListId) (deed : ListDeed)
    (during : Action (List Attempt)) : Action (Except Fault Value × List Attempt) := do
  let (offered, first) ← deed.offer.reporting during
  match offered with
  | .error fault =>
      return (.error fault, first ++ [⟨opened, .use l deed, offered, .error fault⟩])
  | .ok items => do
      let (outcome, more) ← (deed.onList l items).reporting during
      return (outcome, first ++ more ++ [⟨opened, .use l deed, offered, outcome⟩])

/-- What the plan does with a record of every attempt. -/
def recorded : List (LockId × Mode) → Plan → Action (Except Fault Value × List Attempt)
  | _, .finish outcome => return (outcome, [])
  | opened, .use l deed during next => do
      let (outcome, log) ← attemptUse opened l deed do return (← during.recorded opened).2
      behind log ((next outcome).recorded opened)
  | opened, .hold lock mode body next =>
      .enter lock mode fun
        | some fault =>
            behind [⟨opened, .hold lock mode, .ok [], .error (.borrow fault)⟩]
              ((next (.error (.borrow fault))).recorded opened)
        | none => do
            let (outcome, inner) ← body.recorded ((lock, mode) :: opened)
            .leave lock mode <|
              behind (⟨opened, .hold lock mode, .ok [], .ok .null⟩ :: inner)
                ((next outcome).recorded opened)

theorem reports_behind {log : List Attempt} {q : Action (Except Fault Value × List Attempt)}
    {p : Action Value} (h : q.Reports p) : (behind log q).Reports p := by
  rw [Reports, h, behind, bind_eq, Program.bind_assoc]
  rfl

theorem reports_attemptUse (opened : List (LockId × Mode)) (l : ListId) (deed : ListDeed)
    {q : Action (Except Fault Value × List Attempt)} {steps : Action Value}
    (h : q.Reports steps) :
    (attemptUse opened l deed do return (← q).2).Reports ((deed.action l).serving steps) := by
  have offered := reports_reporting h deed.offer
  rw [Reports, ListDeed.action, bind_eq, serving_bind, attempt_bind, offered, Program.bind_assoc,
    attemptUse, bind_eq, Program.bind_assoc]
  refine congrArg _ (funext fun x => ?_)
  obtain ⟨offered, first⟩ := x
  cases offered with
  | error fault => rfl
  | ok items =>
      refine (reports_reporting h (deed.onList l items)).trans ?_
      simp only [bind_eq, Program.bind_assoc]
      rfl

theorem reports_recorded (opened : List (LockId × Mode)) (p : Plan) :
    (p.recorded opened).Reports p.action := by
  induction p generalizing opened with
  | finish outcome => cases outcome <;> rfl
  | use l deed during next duringIH ih =>
      rw [Reports, action, recorded, bind_eq, attempt_attempt_bind,
        reports_attemptUse opened l deed (duringIH opened)]
      simp only [bind_eq, Program.bind_assoc]
      exact congrArg _ (funext fun x => reports_behind (ih x.1 opened))
  | hold lock mode body next bodyIH ih =>
      rw [Reports, action, recorded, bind_eq, attempt_attempt_bind]
      refine congrArg (enter lock mode) (funext fun r => ?_)
      cases r with
      | some fault => exact reports_behind (ih _ opened)
      | none =>
          have inner := bodyIH ((lock, mode) :: opened)
          change ((body.action.attempt.bind fun r => leave lock mode (Program.ofExcept r)).attempt.bind
            fun r => (next r).action.attempt) = _
          rw [attempt_attempt_bind, inner]
          simp only [bind_eq, Program.bind_assoc]
          refine congrArg _ (funext fun x => ?_)
          rw [pure_bind, attempt, attempt_ofExcept]
          exact congrArg (leave lock mode) (reports_behind (ih x.1 opened))

end Plan

end NinjaFile
