import Mathlib.Data.List.Perm.Basic
import NinjaFile.Proofs.Lock.Usage
import NinjaFile.Proofs.Program.Among
import NinjaFile.Proofs.Program.Interleaving
import NinjaFile.Proofs.Program.Releasing

/-!
# Who is in the guard of a list

The lock of a shared list says at every moment which calls are in it, so that a call that
writes is alone.
-/

namespace NinjaFile

open Program Store

/-! ## Locks and contexts -/

namespace Lock.Usage

theorem Faithful.perm {u : Usage} (h : u.Faithful) {contexts : List Context}
    (same : u.contexts.Perm contexts) : Faithful ⟨u.lock, contexts⟩ where
  writer_iff t := by rw [h.writer_iff, same.mem_iff]
  count_write t := by
    have := h.count_write t
    rwa [same.count_eq] at this
  alone t v := by
    rw [← same.mem_iff, ← same.mem_iff]
    exact h.alone t v
  lookup t := by
    rw [h.lookup]
    simp only [same.mem_iff, same.count_eq]
  keys := h.keys

end Lock.Usage

namespace History

variable {κ : Type} {l : ListId}

/-- Where a call is in the guard of a list. -/
def contextsOf (l : ListId) (task : Task κ) : List Lock.Context :=
  (task.progress.inside.filter (·.1 = .list l)).map fun c => ⟨task.thread, c.2⟩

def contexts (l : ListId) (tasks : List (Task κ)) : List Lock.Context :=
  tasks.flatMap (contextsOf l)

theorem mem_contextsOf {task : Task κ} {mode : Mode} :
    ⟨task.thread, mode⟩ ∈ contextsOf l task ↔ (.list l, mode) ∈ task.progress.inside := by
  simp [contextsOf]

theorem contexts_perm {tasks : List (Task κ)} {i : Nat} {task : Task κ}
    (found : tasks[i]? = some task) :
    (contexts l tasks).Perm (contextsOf l task ++ contexts l (tasks.eraseIdx i)) := by
  obtain ⟨hi, rfl⟩ := List.getElem?_eq_some_iff.mp found
  exact (List.getElem_cons_eraseIdx_perm hi).symm.flatMap_right (contextsOf l)

theorem contexts_set_perm {tasks : List (Task κ)} {i : Nat} {task : Task κ}
    (found : tasks[i]? = some task) (task' : Task κ) :
    (contexts l (tasks.set i task')).Perm (contextsOf l task' ++ contexts l (tasks.eraseIdx i)) := by
  obtain ⟨hi, rfl⟩ := List.getElem?_eq_some_iff.mp found
  exact (List.set_perm_cons_eraseIdx hi task').flatMap_right (contextsOf l)

/-! ## Steps -/

section

variable {task : Task κ} {s : Store} {lock : LockId} {mode : Mode}

/-- A call that is about to ask for a guard gets an answer of the guard, whether it has
waited for it or not. -/
theorem advance_enter {next : Option BorrowFault → Action Value}
    (h : task.phase.program = .enter lock mode next) (s : Store) :
    ∃ entry, task.entry? s = some entry ∧
      (entry = (s.guard lock).request task.thread mode ∨
        entry = (s.guard lock).recheck task.thread mode) ∧
      task.advance s = task.receive s lock mode next entry := by
  obtain ⟨t, c, phase, progress⟩ := task
  cases phase with
  | waiting lock' mode' next' =>
      cases h
      exact ⟨_, rfl, .inr rfl, rfl⟩
  | running p =>
      obtain rfl : p = _ := h
      exact ⟨_, rfl, .inl rfl, rfl⟩

theorem phase_eq_running {p : Action Value} (h : task.phase.program = p)
    (asks : ∀ lock mode next, p ≠ .enter lock mode next) : task.phase = .running p := by
  cases phase : task.phase with
  | waiting lock mode next =>
      rw [phase] at h
      exact absurd h.symm (asks lock mode next)
  | running p' =>
      rw [phase] at h
      exact congrArg Phase.running h

theorem advance_act {f : Store → Store} {next : Store → Action Value}
    (h : task.phase.program = .act f next) (s : Store) :
    task.advance s =
      ({ task with phase := .running (next s), progress := task.progress.note s (f s) }, f s) := by
  rw [Task.advance, phase_eq_running h (by simp)]

theorem advance_leave {next : Action Value} (h : task.phase.program = .leave lock mode next)
    (s : Store) :
    task.advance s =
      ({ task with phase := .running next, progress := task.progress.leave lock mode },
        s.setGuard lock ((s.guard lock).leave task.thread mode)) := by
  rw [Task.advance, phase_eq_running h (by simp)]

theorem advance_call {request : SourceId} {next : Action Value}
    (h : task.phase.program = .call request next) (s : Store) :
    task.advance s = ({ task with phase := .running next }, s) := by
  rw [Task.advance, phase_eq_running h (by simp)]

theorem outcome?_eq_some {r : Except Fault Value} :
    task.outcome? = some r ↔ task.phase.program = Program.ofExcept r := by
  obtain ⟨t, c, phase, progress⟩ := task
  cases phase with
  | waiting lock' mode' next' => cases r <;> exact ⟨nofun, nofun⟩
  | running p =>
      cases p <;> cases r <;> simp [Task.outcome?, Phase.program, Program.ofExcept]

end

/-! ## The lock and its contexts -/

/-- A step that leaves the guard of a list alone. -/
def Minds (l : ListId) (f : Store → Store) : Prop :=
  ∀ s : Store, l.index < s.lists.size →
    l.index < (f s).lists.size ∧ ((f s).list l).guard = (s.list l).guard

/-- The list has a lock, and the lock says who is in it. -/
structure Attended (l : ListId) (sys : System κ) : Prop where
  known : l.index < sys.store.lists.size
  disciplined : ∀ task ∈ sys.tasks, task.Disciplined (Minds l) fun _ => True
  faithful : ∃ lock, (sys.store.list l).guard = .locking lock ∧
    Lock.Usage.Faithful ⟨lock, contexts l sys.tasks⟩

/-- The lock of the list says that a call and some others are in it. -/
def Counts (l : ListId) (others : List Lock.Context) (task : Task κ) (s : Store) : Prop :=
  l.index < s.lists.size ∧ ∃ lock, (s.list l).guard = .locking lock ∧
    Lock.Usage.Faithful ⟨lock, contextsOf l task ++ others⟩

section

variable {task : Task κ} {s : Store} {others : List Lock.Context} {lk : LockId} {mode : Mode}

theorem guard_setGuard_self (known : l.index < s.lists.size) (g : Guard) :
    ((s.setGuard (.list l) g).list l).guard = g := by
  rw [list_setGuard, if_pos ⟨rfl, known⟩]

theorem guard_setGuard_other (ne : lk ≠ .list l) (g : Guard) :
    ((s.setGuard lk g).list l).guard = (s.list l).guard := by
  rw [list_setGuard, if_neg fun both => ne both.1]

theorem Counts.leave (h : Counts l others task s) {next : Action Value}
    (hp : task.phase.program = .leave lk mode next) (inside : task.progress.inside = [(lk, mode)]) :
    Counts l others (task.advance s).1 (task.advance s).2 := by
  obtain ⟨known, lock, guard, h⟩ := h
  rw [advance_leave hp]
  refine ⟨by rw [size_setGuard]; exact known, ?_⟩
  have left : contextsOf l
      { task with phase := Phase.running next, progress := task.progress.leave lk mode } = [] := by
    simp [contextsOf, Progress.leave, inside]
  rw [left]
  by_cases hl : lk = .list l
  · subst hl
    have here : contextsOf l task = [⟨task.thread, mode⟩] := by simp [contextsOf, inside]
    rw [here] at h
    have := Lock.Usage.faithful_leave h ⟨task.thread, mode⟩ (.head _)
    refine ⟨_, (guard_setGuard_self known _).trans (by rw [Store.guard, guard]; rfl), ?_⟩
    simpa [Lock.Usage.leave] using this
  · have away : contextsOf l task = [] := by simp [contextsOf, inside, hl]
    rw [away] at h
    exact ⟨lock, (guard_setGuard_other hl _).trans guard, h⟩

theorem Counts.enter (h : Counts l others task s) {next : Option BorrowFault → Action Value}
    (hp : task.phase.program = .enter lk mode next) (inside : task.progress.inside = []) :
    Counts l others (task.advance s).1 (task.advance s).2 := by
  obtain ⟨known, lock, guard, h⟩ := h
  have away : contextsOf l task = [] := by simp [contextsOf, inside]
  rw [away] at h
  obtain ⟨entry, -, hentry, heq⟩ := advance_enter hp s
  rw [heq]
  refine ⟨by cases entry <;> simpa [Task.receive] using known, ?_⟩
  by_cases hl : lk = .list l
  · subst hl
    -- Whatever the lock answers, it knows who is in it.
    have asked : ∃ answer : Entry Lock, entry = answer.map .locking ∧
        (Lock.Usage.enter ⟨lock, others⟩ ⟨task.thread, mode⟩ answer).Faithful := by
      rw [Store.guard, guard] at hentry
      obtain rfl | rfl := hentry
      · exact ⟨_, rfl, Lock.Usage.faithful_request h _ _⟩
      · exact ⟨_, rfl, Lock.Usage.faithful_recheck h _ _⟩
    obtain ⟨answer, rfl, faithful⟩ := asked
    cases answer with
    | entered lock' | refused fault lock' | waits lock' =>
        refine ⟨lock', guard_setGuard_self known _, ?_⟩
        simpa [Task.receive, Entry.map, contextsOf, inside, Lock.Usage.enter] using faithful
  · have away' : contextsOf l (task.receive s lk mode next entry).1 = [] := by
      cases entry <;> simp [Task.receive, contextsOf, inside, hl]
    rw [away']
    cases entry <;> exact ⟨lock, (guard_setGuard_other hl _).trans guard, h⟩

/-- A disciplined call keeps the lock right with every step. -/
theorem Counts.advance (h : Counts l others task s)
    (disciplined : task.Disciplined (Minds l) fun _ => True) :
    Counts l others (task.advance s).1 (task.advance s).2 := by
  obtain ⟨held, disciplined, inside⟩ := disciplined
  cases hp : task.phase.program with
  | pure v =>
      have ended : task.outcome? = some (.ok v) := outcome?_eq_some.mpr hp
      rwa [Task.advance_of_outcome ended]
  | fail fault =>
      have ended : task.outcome? = some (.error fault) := outcome?_eq_some.mpr hp
      rwa [Task.advance_of_outcome ended]
  | act f next =>
      rw [hp] at disciplined
      rw [advance_act hp]
      obtain ⟨known, lock, guard, h⟩ := h
      obtain ⟨known', same⟩ := disciplined.1 s known
      exact ⟨known', lock, same.trans guard, h⟩
  | call request next =>
      rw [advance_call hp]
      exact h
  | leave lk mode next =>
      rw [hp] at disciplined
      obtain ⟨rfl, -⟩ := disciplined
      exact h.leave hp inside
  | enter lk mode next =>
      rw [hp] at disciplined
      obtain ⟨rfl, -⟩ := disciplined
      exact h.enter hp inside

end

namespace Attended

variable {sys : System κ}

theorem start (h : Attended l sys) (t : ThreadId) (call : κ) {p : Action Value}
    (hp : p.Disciplined (Minds l) (fun _ => True) none) : Attended l (sys.start t call p) where
  known := h.known
  disciplined task hmem := by
    obtain hmem | hmem := List.mem_append.mp hmem
    · exact h.disciplined task hmem
    · obtain rfl := List.mem_singleton.mp hmem
      exact Task.disciplined_start hp t call
  faithful := by
    have same : contexts l (sys.start t call p).tasks = contexts l sys.tasks := by
      simp [contexts, contextsOf, System.start, Task.start, Progress.start]
    rw [same]
    exact h.faithful

theorem step (h : Attended l sys) (i : Nat) : Attended l (sys.step i) := by
  cases found : sys.tasks[i]? with
  | none =>
      rw [System.step, found]
      exact h
  | some task =>
      obtain ⟨lock, guard, faithful⟩ := h.faithful
      have disciplined := h.disciplined task (List.mem_of_getElem? found)
      obtain ⟨known, lock', guard', faithful'⟩ :=
        Counts.advance ⟨h.known, lock, guard, faithful.perm (contexts_perm found)⟩ disciplined
      rw [System.step, found]
      refine ⟨known, fun other hmem => ?_, lock', guard', ?_⟩
      · obtain hmem | rfl := List.mem_or_eq_of_mem_set hmem
        · exact h.disciplined other hmem
        · exact disciplined.advance _
      · exact faithful'.perm (contexts_set_perm found _).symm

/-- A call that writes is alone in the guard. -/
theorem alone (h : Attended l sys) {i j : Nat} {task other : Task κ} {mode : Mode}
    (found : sys.tasks[i]? = some task) (found' : sys.tasks[j]? = some other)
    (writes : (.list l, .write) ∈ task.progress.inside)
    (inside : (.list l, mode) ∈ other.progress.inside) : i = j := by
  by_contra ne
  obtain ⟨lock, -, faithful⟩ := h.faithful
  have perm := faithful.perm (contexts_perm found)
  have here : ⟨task.thread, .write⟩ ∈ contextsOf l task := mem_contextsOf.mpr writes
  have there : ⟨other.thread, mode⟩ ∈ contexts l (sys.tasks.eraseIdx i) := by
    refine List.mem_flatMap.mpr ⟨other, ?_, mem_contextsOf.mpr inside⟩
    rw [List.mem_eraseIdx_iff_getElem?]
    exact ⟨j, Ne.symm ne, found'⟩
  cases mode with
  | read =>
      exact perm.alone _ _ (List.mem_append_left _ here) (List.mem_append_right _ there)
  | write =>
      -- The lock knows one writer only, and that one is in it once.
      have same : task.thread = other.thread := by
        have first := (perm.writer_iff _).mpr (List.mem_append_left _ here)
        have second := (perm.writer_iff _).mpr (List.mem_append_right _ there)
        exact Option.some.inj (first.symm.trans second)
      have once := perm.count_write task.thread
      rw [List.count_append] at once
      have := List.count_pos_iff.mpr here
      have := List.count_pos_iff.mpr (same ▸ there)
      omega

end Attended

end History

end NinjaFile
