import Mathlib.Logic.Function.Iterate
import NinjaFile.Proofs.Program.Logic
import NinjaFile.Store

/-!
# Interleaving

Calls of any number of threads on one store, each going on by one atomic step whenever
it is its turn.  A call that waits for a guard looks at it again at any time, and one
that asks for a lazy source to be ended goes on at any time, so that whatever the last
steps of the source do can come in between.
-/

namespace NinjaFile

/-- How far a call is: it goes on with a program, or it waits in front of a guard. -/
inductive Phase where
  | running (p : Action Value)
  | waiting (lock : LockId) (mode : Mode) (next : Option BorrowFault → Action Value)

namespace Phase

/-- What is still to be done. -/
def program : Phase → Action Value
  | .running p => p
  | .waiting lock mode next => .enter lock mode next

end Phase

/-- A call of a thread, which stays known when it has ended. -/
structure Task (κ : Type) where
  thread : ThreadId
  call : κ
  phase : Phase
  progress : Progress Store

namespace Task

variable {κ : Type}

def start (t : ThreadId) (call : κ) (p : Action Value) : Task κ := ⟨t, call, .running p, .start⟩

/-- How a call has ended, if it has. -/
def outcome? (task : Task κ) : Option (Except Fault Value) :=
  match task.phase with
  | .running (.pure v) => some (.ok v)
  | .running (.fail fault) => some (.error fault)
  | _ => none

/-- The answer of a guard that the call asks for next. -/
def entry? (task : Task κ) (s : Store) : Option (Entry Guard) :=
  match task.phase with
  | .running (.enter lock mode _) => some ((s.guard lock).request task.thread mode)
  | .waiting lock mode _ => some ((s.guard lock).recheck task.thread mode)
  | _ => none

/-- Goes on with the answer of a guard. -/
def receive (task : Task κ) (s : Store) (lock : LockId) (mode : Mode)
    (next : Option BorrowFault → Action Value) : Entry Guard → Task κ × Store
  | .entered g =>
      ({ task with phase := .running (next none), progress := task.progress.enter lock mode },
        s.setGuard lock g)
  | .refused fault g => ({ task with phase := .running (next (some fault)) }, s.setGuard lock g)
  | .waits g => ({ task with phase := .waiting lock mode next }, s.setGuard lock g)

/-- One step of a call; one that has ended takes no more. -/
def advance (task : Task κ) (s : Store) : Task κ × Store :=
  match task.phase with
  | .running (.pure _) => (task, s)
  | .running (.fail _) => (task, s)
  | .running (.act f next) =>
      ({ task with phase := .running (next s), progress := task.progress.note s (f s) }, f s)
  | .running (.enter lock mode next) =>
      task.receive s lock mode next ((s.guard lock).request task.thread mode)
  | .running (.leave lock mode next) =>
      ({ task with phase := .running next, progress := task.progress.leave lock mode },
        s.setGuard lock ((s.guard lock).leave task.thread mode))
  | .running (.call _ next) => ({ task with phase := .running next }, s)
  | .waiting lock mode next =>
      task.receive s lock mode next ((s.guard lock).recheck task.thread mode)

theorem receive_kept (task : Task κ) (s : Store) (lock : LockId) (mode : Mode)
    (next : Option BorrowFault → Action Value) (entry : Entry Guard) :
    (task.receive s lock mode next entry).1.thread = task.thread ∧
      (task.receive s lock mode next entry).1.call = task.call := by
  cases entry <;> exact ⟨rfl, rfl⟩

theorem advance_kept (task : Task κ) (s : Store) :
    (task.advance s).1.thread = task.thread ∧ (task.advance s).1.call = task.call := by
  rw [advance]
  split <;> first | exact ⟨rfl, rfl⟩ | exact receive_kept ..

@[simp] theorem thread_advance (task : Task κ) (s : Store) :
    (task.advance s).1.thread = task.thread := (task.advance_kept s).1

@[simp] theorem call_advance (task : Task κ) (s : Store) :
    (task.advance s).1.call = task.call := (task.advance_kept s).2

theorem advance_of_outcome {task : Task κ} {r : Except Fault Value} (h : task.outcome? = some r)
    (s : Store) : task.advance s = (task, s) := by
  obtain ⟨t, call, phase, progress⟩ := task
  cases phase with
  | waiting lock mode next => cases h
  | running p => cases p <;> first | rfl | cases h

end Task

/-! ## Runs of one thread -/

namespace Phase

/-- What a call looks like where a run of its program has stopped. -/
def ofPause : Program.Pause Store SourceId Value → Phase
  | .done v => .running (.pure v)
  | .failed fault => .running (.fail fault)
  | .waiting lock mode next => .waiting lock mode next

end Phase

namespace Task

variable {κ : Type}

/-- One step of a call and of the store it works on. -/
def move (m : Task κ × Store) : Task κ × Store := m.1.advance m.2

/-- A task with a program in the place of what it was about to do. -/
def doing (task : Task κ) (p : Action Value) : Task κ := { task with phase := .running p }

/-- A run of one thread in which nobody has anything to add where a source ends. -/
def runAlone (t : ThreadId) (p : Action Value) (s : Store) :
    Program.Pause Store SourceId Value × Store :=
  let (pause, after, ()) := p.run t (fun _ m => m) (s, ())
  (pause, after)

theorem runAlone_enter (t : ThreadId) (lock : LockId) (mode : Mode)
    (next : Option BorrowFault → Action Value) (s : Store) :
    runAlone t (.enter lock mode next) s =
      match (s.guard lock).request t mode with
      | .entered g => runAlone t (next none) (s.setGuard lock g)
      | .refused fault g => runAlone t (next (some fault)) (s.setGuard lock g)
      | .waits g => (.waiting lock mode next, s.setGuard lock g) := by
  rw [runAlone, Program.run, show Guarded.guard s lock = s.guard lock from rfl]
  cases (s.guard lock).request t mode <;> rfl

theorem runAlone_read {α : Type} (t : ThreadId) (f : Store → α) (k : α → Action Value)
    (s : Store) : runAlone t (Action.read f >>= k) s = runAlone t (k (f s)) s := rfl

/-- A run of a program without others is a number of its steps. -/
theorem runAlone_eq_moves (p : Action Value) (task : Task κ) (s : Store) :
    ∃ n after, move^[n] (task.doing p, s) = (after, (runAlone task.thread p s).2) ∧
      after.phase = .ofPause (runAlone task.thread p s).1 := by
  induction p generalizing task s with
  | pure v => exact ⟨0, _, rfl, rfl⟩
  | fail fault => exact ⟨0, _, rfl, rfl⟩
  | act f next ih =>
      obtain ⟨n, after, hmoves, hphase⟩ :=
        ih s { task with progress := task.progress.note s (f s) } (f s)
      exact ⟨n + 1, after, hmoves, hphase⟩
  | enter lock mode next ih =>
      rw [runAlone_enter]
      have hstep : move (task.doing (.enter lock mode next), s) =
          task.receive s lock mode next ((s.guard lock).request task.thread mode) := rfl
      cases hentry : (s.guard lock).request task.thread mode with
      | entered g =>
          obtain ⟨n, after, hmoves, hphase⟩ :=
            ih none { task with progress := task.progress.enter lock mode } (s.setGuard lock g)
          refine ⟨n + 1, after, ?_, hphase⟩
          rw [Function.iterate_succ_apply, hstep, hentry]
          exact hmoves
      | refused fault g =>
          obtain ⟨n, after, hmoves, hphase⟩ := ih (some fault) task (s.setGuard lock g)
          refine ⟨n + 1, after, ?_, hphase⟩
          rw [Function.iterate_succ_apply, hstep, hentry]
          exact hmoves
      | waits g =>
          refine ⟨1, { task with phase := .waiting lock mode next }, ?_, rfl⟩
          rw [Function.iterate_one, hstep, hentry]
          rfl
  | leave lock mode next ih =>
      obtain ⟨n, after, hmoves, hphase⟩ :=
        ih { task with progress := task.progress.leave lock mode }
          (s.setGuard lock ((s.guard lock).leave task.thread mode))
      exact ⟨n + 1, after, hmoves, hphase⟩
  | call request next ih =>
      obtain ⟨n, after, hmoves, hphase⟩ := ih task s
      exact ⟨n + 1, after, hmoves, hphase⟩

end Task

/-! ## Systems -/

/-- A store and all the calls that have been made on it, the oldest first. -/
structure System (κ : Type) where
  store : Store
  tasks : List (Task κ)

namespace System

variable {κ : Type}

def start (sys : System κ) (t : ThreadId) (call : κ) (p : Action Value) : System κ :=
  { sys with tasks := sys.tasks ++ [.start t call p] }

/-- The task with a number takes a step, if there is one. -/
def step (sys : System κ) (i : Nat) : System κ :=
  match sys.tasks[i]? with
  | none => sys
  | some task => ⟨(task.advance sys.store).2, sys.tasks.set i (task.advance sys.store).1⟩

end System

/-! ## Terms among others -/

/-- The terms do not depend on guards, and a thread can count on nothing that would not
last. -/
structure Program.Terms.Steady (T : Program.Terms Store) : Prop where
  refl : ∀ trail s, T.inv s → T.rely trail s s
  trans : ∀ trail s₁ s₂ s₃, T.rely trail s₁ s₂ → T.rely trail s₂ s₃ → T.rely trail s₁ s₃
  inv_setGuard : ∀ s lock g, T.inv s → T.inv (s.setGuard lock g)
  rely_setGuard : ∀ trail s lock g, T.inv s → T.rely trail s (s.setGuard lock g)

theorem wp_read_bind {α β : Type} {T : Program.Terms Store}
    {Q : Except Fault β → Progress Store → Store → Prop} (f : Store → α) (k : α → Action β)
    (g : Progress Store) (s : Store) :
    (Action.read f >>= k).wp T Q g s ↔
      ∀ s', T.rely g.trail s s' → T.inv s' →
        T.keeps g.trail s' s' ∧ T.inv s' ∧ (k (f s')).wp T Q (g.note s' s') s' :=
  Iff.rfl

theorem wp_read {α : Type} {T : Program.Terms Store}
    {Q : Except Fault α → Progress Store → Store → Prop} (f : Store → α)
    (g : Progress Store) (s : Store) :
    (Action.read f).wp T Q g s ↔
      ∀ s', T.rely g.trail s s' → T.inv s' →
        T.keeps g.trail s' s' ∧ T.inv s' ∧ Q (.ok (f s')) (g.note s' s') s' :=
  Iff.rfl

namespace Task

open Program (Terms)

variable {κ : Type} {T : Terms Store} {Q : Except Fault Value → Progress Store → Store → Prop}

/-- What is left of a call stands by the terms, and would end as it should. -/
def Stands (T : Terms Store) (Q : Except Fault Value → Progress Store → Store → Prop)
    (task : Task κ) (s : Store) : Prop :=
  ∃ s₀, T.rely task.progress.trail s₀ s ∧ task.phase.program.wp T Q task.progress s₀

theorem stands_start {p : Action Value} {s : Store} (hT : T.Steady) (hinv : T.inv s)
    (h : p.wp T Q .start s) (t : ThreadId) (call : κ) : (start t call p).Stands T Q s :=
  ⟨s, hT.refl _ s hinv, h⟩

/-- What others do, and what is done to guards, does not matter. -/
theorem Stands.rely {task : Task κ} {s s' : Store} (hT : T.Steady) (h : task.Stands T Q s)
    (hrely : T.rely task.progress.trail s s') : task.Stands T Q s' := by
  obtain ⟨s₀, hrely₀, hwp⟩ := h
  exact ⟨s₀, hT.trans _ _ _ _ hrely₀ hrely, hwp⟩

theorem Stands.enters {task : Task κ} {s : Store} (h : task.Stands T Q s) (hinv : T.inv s)
    {lock : LockId} {mode : Mode} {next : Option BorrowFault → Action Value}
    (hphase : task.phase.program = .enter lock mode next) :
    T.enters task.progress s lock mode := by
  obtain ⟨s₀, hrely, hwp⟩ := h
  rw [hphase] at hwp
  exact (hwp s hrely hinv).1

/-- A step is an act that stands by the terms, or it leaves all but the guards alone. -/
inductive Moved (T : Terms Store) (trail : List (Store × Store)) (s : Store) : Store → Prop where
  | same : Moved T trail s s
  | guard (lock : LockId) (g : Guard) : Moved T trail s (s.setGuard lock g)
  | act {s' : Store} (h : T.keeps trail s s') : Moved T trail s s'

theorem Stands.receive {task : Task κ} {s : Store} (hT : T.Steady) (h : task.Stands T Q s)
    (hinv : T.inv s) {lock : LockId} {mode : Mode} {next : Option BorrowFault → Action Value}
    (hphase : task.phase.program = .enter lock mode next) {entry : Entry Guard}
    (hentry : ∀ fault g, entry = .refused fault g → T.refuses) :
    (task.receive s lock mode next entry).1.Stands T Q (task.receive s lock mode next entry).2 ∧
      T.inv (task.receive s lock mode next entry).2 ∧
      Moved T task.progress.trail s (task.receive s lock mode next entry).2 := by
  obtain ⟨s₀, hrely, hwp⟩ := h
  rw [hphase] at hwp
  obtain ⟨-, hnone, hsome⟩ := hwp s hrely hinv
  cases entry with
  | entered g =>
      exact ⟨⟨s, hT.rely_setGuard _ _ _ _ hinv, hnone⟩, hT.inv_setGuard _ _ _ hinv,
        .guard lock g⟩
  | refused fault g =>
      exact ⟨⟨s, hT.rely_setGuard _ _ _ _ hinv, hsome (hentry fault g rfl) fault⟩,
        hT.inv_setGuard _ _ _ hinv, .guard lock g⟩
  | waits g =>
      exact ⟨⟨s₀, hT.trans _ _ _ _ hrely (hT.rely_setGuard _ _ _ _ hinv), hwp⟩,
        hT.inv_setGuard _ _ _ hinv, .guard lock g⟩

/-- One step of a call that stands by its terms. -/
theorem Stands.advance {task : Task κ} {s : Store} (hT : T.Steady) (h : task.Stands T Q s)
    (hinv : T.inv s)
    (hentry : ∀ fault g, task.entry? s = some (.refused fault g) → T.refuses) :
    (task.advance s).1.Stands T Q (task.advance s).2 ∧ T.inv (task.advance s).2 ∧
      Moved T task.progress.trail s (task.advance s).2 := by
  obtain ⟨t, call, phase, progress⟩ := task
  cases phase with
  | waiting lock mode next =>
      exact h.receive hT hinv rfl fun fault g hg => hentry fault g (congrArg some hg)
  | running p =>
      cases p with
      | pure v => exact ⟨h, hinv, .same⟩
      | fail fault => exact ⟨h, hinv, .same⟩
      | act f next =>
          obtain ⟨s₀, hrely, hwp⟩ := h
          obtain ⟨hkeeps, hafter, hnext⟩ := hwp s hrely hinv
          exact ⟨⟨f s, hT.refl _ _ hafter, hnext⟩, hafter, .act hkeeps⟩
      | enter lock mode next =>
          exact h.receive hT hinv rfl fun fault g hg => hentry fault g (congrArg some hg)
      | leave lock mode next =>
          obtain ⟨s₀, hrely, hwp⟩ := h
          exact ⟨⟨s₀, hT.trans _ _ _ _ hrely (hT.rely_setGuard _ _ _ _ hinv), hwp⟩,
            hT.inv_setGuard _ _ _ hinv, .guard lock _⟩
      | call request next =>
          obtain ⟨s₀, hrely, hwp⟩ := h
          exact ⟨⟨s₀, hrely, hwp⟩, hinv, .same⟩

theorem Stands.outcome {task : Task κ} {s : Store} (h : task.Stands T Q s)
    {r : Except Fault Value} (hr : task.outcome? = some r) :
    ∃ s₀, T.rely task.progress.trail s₀ s ∧ Q r task.progress s₀ := by
  obtain ⟨t, call, phase, progress⟩ := task
  obtain ⟨s₀, hrely, hwp⟩ := h
  cases phase with
  | waiting lock mode next => cases hr
  | running p =>
      cases p with
      | pure v =>
          obtain rfl : r = .ok v := by simpa [outcome?] using hr.symm
          exact ⟨s₀, hrely, hwp⟩
      | fail fault =>
          obtain rfl : r = .error fault := by simpa [outcome?] using hr.symm
          exact ⟨s₀, hrely, hwp⟩
      | act | enter | leave | call => cases hr

end Task

end NinjaFile

/-!
## Trails of calls

The steps that have been taken in each call of a system, and what a step of one of them
changes.
-/

namespace NinjaFile

namespace System

variable {κ : Type}

/-- The steps that have been taken in the call with a number. -/
def trail (sys : System κ) (i : Nat) : List (Store × Store) :=
  match sys.tasks[i]? with
  | some task => task.progress.trail
  | none => []

theorem trail_start (sys : System κ) (t : ThreadId) (call : κ) (p : Action Value) (i : Nat) :
    (sys.start t call p).trail i = sys.trail i := by
  rw [trail, trail, start, List.getElem?_append]
  split
  · next found =>
      split at found
      · rw [found]
      · obtain rfl := List.mem_singleton.mp (List.mem_of_getElem? found)
        rw [List.getElem?_eq_none (by omega)]
        rfl
  · next found =>
      split at found
      · rw [found]
      · rw [List.getElem?_eq_none (by omega)]

variable {sys : System κ} {i : Nat} {task : Task κ}

theorem store_step (found : sys.tasks[i]? = some task) :
    (sys.step i).store = (task.advance sys.store).2 := by
  rw [step, found]

theorem task_step (found : sys.tasks[i]? = some task) (j : Nat) :
    (sys.step i).tasks[j]? = if j = i then some (task.advance sys.store).1 else sys.tasks[j]? := by
  have inside := (List.getElem?_eq_some_iff.mp found).1
  rw [step, found]
  dsimp only
  rw [List.getElem?_set]
  by_cases same : j = i
  · subst same
    rw [if_pos rfl, if_pos inside, if_pos rfl]
  · rw [if_neg fun heq => same heq.symm, if_neg same]

theorem trail_of_task (found : sys.tasks[i]? = some task) : sys.trail i = task.progress.trail := by
  rw [trail, found]

theorem trail_step (found : sys.tasks[i]? = some task) (j : Nat) :
    (sys.step i).trail j =
      if j = i then (task.advance sys.store).1.progress.trail else sys.trail j := by
  rw [trail, task_step found]
  split
  · next heq =>
      split at heq
      · next same =>
          cases heq
          rw [if_pos same]
      · next other => rw [if_neg other, trail_of_task heq]
  · next heq =>
      split at heq
      · cases heq
      · next other =>
          rw [if_neg other, trail, heq]

end System

end NinjaFile
