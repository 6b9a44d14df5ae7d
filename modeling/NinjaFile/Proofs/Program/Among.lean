import NinjaFile.Proofs.Program.Discipline
import NinjaFile.Proofs.Program.Interleaving

/-!
# One call among others

A call as its caller sees it: it takes its steps, and between any two of them others may
change the store.  What they can change is all that is said of them, so that they may be
other threads as well as the last steps of a source that the call itself takes items from.
-/

namespace NinjaFile.Task

open Program (Terms)

variable {κ : Type} {env : Store → Store → Prop}

/-! ## Disciplined calls -/

/-- A call that is in the guard that its discipline says, and in no other. -/
def Disciplined (P quiet : (Store → Store) → Prop) (task : Task κ) : Prop :=
  ∃ held, task.phase.program.Disciplined P quiet held ∧ task.progress.inside = held.toList

theorem disciplined_start {P quiet : (Store → Store) → Prop} {p : Action Value}
    (h : p.Disciplined P quiet none) (t : ThreadId) (call : κ) :
    (start t call p).Disciplined P quiet :=
  ⟨none, h, rfl⟩

namespace Disciplined

variable {P quiet : (Store → Store) → Prop} {task : Task κ}

theorem advance (h : task.Disciplined P quiet) (s : Store) :
    (task.advance s).1.Disciplined P quiet := by
  obtain ⟨held, now, inside⟩ := h
  obtain ⟨t, call, phase, progress⟩ := task
  have receive {lock : LockId} {mode : Mode} {next : Option BorrowFault → Action Value}
      (entry : Entry Guard) (now : (Program.enter lock mode next).Disciplined P quiet held)
      (phase : Phase) :
      (receive ⟨t, call, phase, progress⟩ s lock mode next entry).1.Disciplined P quiet := by
    obtain ⟨rfl, entered, refused⟩ := now
    cases entry with
    | entered g => exact ⟨_, entered, congrArg (List.cons (lock, mode)) inside⟩
    | refused fault g => exact ⟨_, refused fault, inside⟩
    | waits g => exact ⟨_, ⟨rfl, entered, refused⟩, inside⟩
  cases phase with
  | waiting lock mode next => exact receive _ now _
  | running p =>
      cases p with
      | pure v => exact ⟨held, now, inside⟩
      | fail fault => exact ⟨held, now, inside⟩
      | act f next => exact ⟨held, now.2.2 s, inside⟩
      | enter lock mode next => exact receive _ now _
      | leave lock mode next =>
          obtain ⟨rfl, now⟩ := now
          refine ⟨none, now, ?_⟩
          change progress.inside.erase (lock, mode) = []
          rw [show progress.inside = [(lock, mode)] from inside, List.erase_cons_head]
      | call request next =>
          obtain ⟨rfl, now⟩ := now
          exact ⟨none, now, inside⟩

theorem outside_of_ended (h : task.Disciplined P quiet) {r : Except Fault Value}
    (hr : task.outcome? = some r) : task.progress.inside = [] := by
  obtain ⟨held, now, inside⟩ := h
  obtain ⟨t, call, phase, progress⟩ := task
  cases phase with
  | waiting lock mode next => cases hr
  | running p =>
      cases p with
      | pure v =>
          obtain rfl : held = none := now
          exact inside
      | fail fault =>
          obtain rfl : held = none := now
          exact inside
      | act | enter | leave | call => cases hr

end Disciplined

/-! ## Steps among those of others -/

/-- Where a call and the store can be after some steps, if others change the store only as
`env` says. -/
inductive Among (env : Store → Store → Prop) (task : Task κ) (s : Store) :
    Task κ → Store → Prop where
  | here : Among env task s task s
  | own {task' : Task κ} {s' : Store} (h : Among env task s task' s') :
      Among env task s (task'.advance s').1 (task'.advance s').2
  | others {task' : Task κ} {s' s'' : Store} (h : Among env task s task' s')
      (change : env s' s'') : Among env task s task' s''

namespace Among

variable {task task' : Task κ} {s s' : Store}

theorem moves (env : Store → Store → Prop) (task : Task κ) (s : Store) (n : Nat) :
    Among env task s (move^[n] (task, s)).1 (move^[n] (task, s)).2 := by
  induction n with
  | zero => exact .here
  | succ n ih =>
      rw [Function.iterate_succ_apply']
      exact .own ih

/-- A call that stands by its terms goes on to do so, if the others only do what the terms
let them do. -/
theorem stands {T : Terms Store} {Q : Except Fault Value → Progress Store → Store → Prop}
    (hT : T.Steady) (refuses : T.refuses)
    (may : ∀ s s', T.inv s → env s s' → (∀ trail, T.rely trail s s') ∧ T.inv s')
    (h : Among env task s task' s') (hstands : task.Stands T Q s) (hinv : T.inv s) :
    task'.Stands T Q s' ∧ T.inv s' := by
  induction h with
  | here => exact ⟨hstands, hinv⟩
  | own _ ih =>
      obtain ⟨hstands', hinv'⟩ := ih
      obtain ⟨hnext, hafter, -⟩ := hstands'.advance hT hinv' fun _ _ _ => refuses
      exact ⟨hnext, hafter⟩
  | others _ change ih =>
      obtain ⟨hstands', hinv'⟩ := ih
      obtain ⟨hrely, hafter⟩ := may _ _ hinv' change
      exact ⟨hstands'.rely hT (hrely _), hafter⟩

theorem outcome {T : Terms Store} {Q : Except Fault Value → Progress Store → Store → Prop}
    (hT : T.Steady) (refuses : T.refuses)
    (may : ∀ s s', T.inv s → env s s' → (∀ trail, T.rely trail s s') ∧ T.inv s')
    {t : ThreadId} {call : κ} {p : Action Value} (hp : p.wp T Q .start s) (hinv : T.inv s)
    (h : Among env (Task.start t call p) s task s') {r : Except Fault Value}
    (hr : task.outcome? = some r) :
    ∃ s₀, T.rely task.progress.trail s₀ s' ∧ Q r task.progress s₀ :=
  (h.stands hT refuses may (stands_start hT hinv hp t call) hinv).1.outcome hr

/-- What neither others nor the acts of the call change, and what has nothing to do with
guards, is as it was. -/
theorem view_eq {β : Type} (view : Store → β) {t : ThreadId} {call : κ} {p : Action Value}
    (h : Among env (Task.start t call p) s task s')
    (guards : ∀ s lock g, view (s.setGuard lock g) = view s)
    (others : ∀ a b, env a b → view b = view a)
    (own : ∀ step ∈ task.progress.trail, view step.2 = view step.1) : view s' = view s := by
  induction h with
  | here => rfl
  | others _ change ih => exact (others _ _ change).trans (ih own)
  | @own task s' _ ih =>
      obtain ⟨t, call, phase, progress⟩ := task
      have receive (lock : LockId) (mode : Mode) (next : Option BorrowFault → Action Value)
          (entry : Entry Guard) {phase : Phase}
          (own : ∀ step ∈ (receive ⟨t, call, phase, progress⟩ s' lock mode next entry).1.progress.trail,
            view step.2 = view step.1)
          (ih : (∀ step ∈ progress.trail, view step.2 = view step.1) → view s' = view s) :
          view (receive ⟨t, call, phase, progress⟩ s' lock mode next entry).2 = view s := by
        cases entry <;> exact (guards ..).trans (ih own)
      cases phase with
      | waiting lock mode next => exact receive _ _ _ _ own ih
      | running p =>
          cases p with
          | pure | fail | call => exact ih own
          | act f next =>
              have last := own (s', f s') (List.mem_append_right _ (List.mem_singleton_self _))
              exact last.trans (ih fun step hmem => own step (List.mem_append_left _ hmem))
          | enter lock mode next => exact receive _ _ _ _ own ih
          | leave lock mode next => exact (guards ..).trans (ih own)

theorem disciplined {P quiet : (Store → Store) → Prop} (h : Among env task s task' s')
    (start : task.Disciplined P quiet) : task'.Disciplined P quiet := by
  induction h with
  | here => exact start
  | others _ _ ih => exact ih
  | @own task' s' _ ih => exact ih.advance s'

/-- A disciplined call has left all guards when it has ended. -/
theorem left_guards {P quiet : (Store → Store) → Prop} {t : ThreadId} {call : κ} {p : Action Value}
    (h : Among env (Task.start t call p) s task s') (disciplined : p.Disciplined P quiet none)
    {r : Except Fault Value} (hr : task.outcome? = some r) : task.progress.inside = [] :=
  (h.disciplined (disciplined_start disciplined t call)).outside_of_ended hr

end Among

end NinjaFile.Task
