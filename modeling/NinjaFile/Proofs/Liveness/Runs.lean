import NinjaFile.Proofs.Arena.Stability
import NinjaFile.Proofs.Liveness.Turns

/-!
# Nobody waits forever

Any number of threads call the operations of the library, one after the other and also from
the sources that operations consume.  Whatever the order in which guards are asked for, some
thread whose call has not ended can go on; and a thread on its own is never refused a guard.
-/

namespace NinjaFile

open Program Store Script

variable {κ : Type}

/-! ## Systems -/

namespace System

/-- It is the turn of a call: those that its thread began after it have ended. -/
structure Turn (sys : System κ) (earlier : List (Task κ)) (task : Task κ)
    (later : List (Task κ)) : Prop where
  split : sys.tasks = earlier ++ task :: later
  last : ∀ inner ∈ later, inner.thread = task.thread → inner.outcome? ≠ none

/-- A thread may begin a call: those of its calls that have not ended run steps of a source. -/
def MayCall (sys : System κ) (t : ThreadId) : Prop :=
  ∀ outer ∈ sys.tasks, outer.thread = t → outer.outcome? ≠ none ∨ outer.Consumes

/-- The system after a turn. -/
def turn (sys : System κ) (earlier : List (Task κ)) (task : Task κ) (later : List (Task κ)) :
    System κ :=
  ⟨(task.advance sys.store).2, earlier ++ (task.advance sys.store).1 :: later⟩

/-- What is true of a system in which threads take turns. -/
structure Fluent (sys : System κ) : Prop where
  sober : ∀ task ∈ sys.tasks, task.Sober
  nested : sys.tasks.Pairwise fun outer inner => outer.thread = inner.thread →
    outer.outcome? ≠ none ∨ inner.outcome? ≠ none ∨ outer.Consumes
  sincere : ∀ lock, Sincere sys.tasks lock (sys.store.guard lock)
  settled : ∀ lock, (sys.store.guard lock).Settled
  awaited : ∀ task ∈ sys.tasks, ∀ lock mode next, task.phase = .waiting lock mode next →
    (sys.store.guard lock).AwaitedBy task.thread

namespace Fluent

variable {sys : System κ} {earlier later : List (Task κ)} {task : Task κ}

theorem alone (h : sys.Fluent) (turn : sys.Turn earlier task later) (goes : task.outcome? = none)
    {other : Task κ} (hmem : other ∈ earlier ++ later) (thread : other.thread = task.thread) :
    other.outcome? ≠ none ∨ other.Consumes := by
  have nested := h.nested
  rw [turn.split] at nested
  rcases List.mem_append.mp hmem with hmem | hmem
  · rcases (List.pairwise_append.mp nested).2.2 other hmem task List.mem_cons_self thread with
      ended | ended | consumes
    · exact .inl ended
    · exact absurd goes ended
    · exact .inr consumes
  · exact .inl (turn.last other hmem thread)

theorem outside (h : sys.Fluent) (turn : sys.Turn earlier task later) (goes : task.outcome? = none) :
    ∀ other ∈ earlier ++ later, other.thread = task.thread → other.progress.inside = [] := by
  intro other hmem thread
  have sober : other.Sober := h.sober other (by
    rw [turn.split]
    exact List.mem_append.mpr ((List.mem_append.mp hmem).imp_right (List.mem_cons_of_mem _)))
  rcases h.alone turn goes hmem thread with ended | consumes
  · obtain ⟨r, hr⟩ := Option.ne_none_iff_exists'.mp ended
    exact sober.outside_of_ended hr
  · exact sober.outside_of_consumes consumes

theorem next (h : sys.Fluent) (turn : sys.Turn earlier task later) :
    (sys.turn earlier task later).Fluent := by
  obtain ⟨s, tasks⟩ := sys
  obtain rfl : tasks = earlier ++ task :: later := turn.split
  cases goes : task.outcome? with
  | some r =>
      rw [System.turn, Task.advance_of_outcome goes]
      exact h
  | none =>
      have sober : task.Sober := h.sober task (by simp)
      have turned := sober.turned s
      have thread := task.thread_advance s
      have outside := h.outside turn goes
      have mem {P : Task κ → Prop} (old : ∀ other ∈ earlier ++ later, P other)
          (new : P (task.advance s).1) : ∀ other ∈ earlier ++ (task.advance s).1 :: later, P other := by
        intro other hmem
        rcases List.mem_append.mp hmem with h | h
        · exact old other (List.mem_append_left _ h)
        · rcases List.mem_cons.mp h with rfl | h
          · exact new
          · exact old other (List.mem_append_right _ h)
      have kept {other : Task κ} (hmem : other ∈ earlier ++ later) :
          other ∈ earlier ++ task :: later :=
        List.mem_append.mpr ((List.mem_append.mp hmem).imp_right (List.mem_cons_of_mem _))
      refine ⟨mem (fun other hmem => h.sober other (kept hmem)) (sober.advance s), ?_,
        fun lock => (h.sincere lock).turned thread outside turned,
        fun lock => turned.settled (h.settled lock), mem ?_ ?_⟩
      · obtain ⟨before, after, across⟩ := List.pairwise_append.mp h.nested
        obtain ⟨-, after⟩ := List.pairwise_cons.mp after
        refine List.pairwise_append.mpr ⟨before, List.pairwise_cons.mpr ⟨?_, after⟩, ?_⟩
        · exact fun inner hmem heq => .inr (.inl (turn.last inner hmem (heq.symm.trans thread)))
        · intro outer houter inner hinner heq
          rcases List.mem_cons.mp hinner with rfl | hinner
          · exact (h.alone turn goes (List.mem_append_left _ houter) (heq.trans thread)).imp_right
              .inr
          · exact across outer houter inner (List.mem_cons_of_mem _ hinner) heq
      · intro other hmem lock mode next waiting
        refine turned.awaitedBy (fun heq => ?_) (h.awaited other (kept hmem) lock mode next waiting)
        -- A thread does not wait with one call while another one of its calls has the turn.
        have still := h.alone turn goes hmem heq
        rw [Task.outcome?, Task.Consumes, waiting] at still
        exact still.elim (fun h => h rfl) id
      · intro lock mode next waiting
        rw [thread]
        exact turned.awaited waiting

theorem start (h : sys.Fluent) {t : ThreadId} (may : sys.MayCall t) (call : κ) {p : Action Value}
    (hp : p.Disciplined LeavesGuards (fun f => ∀ s, (f s).sources = s.sources) none) :
    (sys.start t call p).Fluent where
  sober := List.forall_mem_append.mpr
    ⟨h.sober, List.forall_mem_singleton.mpr (Task.disciplined_start hp t call)⟩
  nested := by
    refine List.pairwise_append.mpr ⟨h.nested, List.pairwise_singleton _ _, ?_⟩
    intro outer houter inner hinner thread
    cases List.mem_singleton.mp hinner
    exact (may outer houter thread).imp_right .inr
  sincere lock := (h.sincere lock).mono fun mode u ⟨task, hmem, within⟩ =>
    ⟨task, List.mem_append_left _ hmem, within⟩
  settled := h.settled
  awaited := List.forall_mem_append.mpr ⟨h.awaited, List.forall_mem_singleton.mpr nofun⟩

/-! ## Somebody can go on -/

/-- Where nobody is inside a guard, nothing keeps anybody from going on. -/
theorem unblocked_of_outside (h : sys.Fluent)
    (outside : ∀ other ∈ sys.tasks, other.progress.inside = []) (hmem : task ∈ sys.tasks) :
    task.Unblocked sys.store := by
  have idle (lock : LockId) : (sys.store.guard lock).Idle :=
    (h.sincere lock).idle (h.settled lock) fun mode t ⟨other, hother, _, within⟩ => by
      rw [outside other hother] at within
      cases within
  refine ⟨fun lock mode next waiting => (idle lock).isNotified (h.settled lock)
    (h.awaited task hmem lock mode next waiting), fun entry hentry => ?_⟩
  obtain ⟨t, call, phase, progress⟩ := task
  cases phase with
  | waiting lock mode next =>
      cases hentry
      exact (idle lock).asks .recheck
  | running p =>
      cases p with
      | enter lock mode next =>
          cases hentry
          exact (idle lock).asks .request
      | pure | fail | act | leave | call => cases hentry

/-- A thread on its own can always go on. -/
theorem unblocked_alone (h : sys.Fluent) (turn : sys.Turn earlier task later)
    (goes : task.outcome? = none) (only : ∀ other ∈ sys.tasks, other.thread = task.thread) :
    task.Unblocked sys.store := by
  have hmem : task ∈ sys.tasks := by simp [turn.split]
  by_cases inside : task.progress.inside = []
  · refine h.unblocked_of_outside (fun other hother => ?_) hmem
    rw [turn.split] at hother only
    rcases List.mem_append.mp hother with hother' | hother'
    · exact h.outside turn goes other (List.mem_append_left _ hother') (only other hother)
    · rcases List.mem_cons.mp hother' with rfl | hother'
      · exact inside
      · exact h.outside turn goes other (List.mem_append_right _ hother') (only other hother)
  · exact ((h.sober task hmem).unblocked_of_inside inside).2.2

/-- As long as a call has not ended, it is the turn of one that can go on. -/
theorem goes_on (h : sys.Fluent) (unfinished : ∃ task ∈ sys.tasks, task.outcome? = none) :
    ∃ earlier task later, sys.Turn earlier task later ∧ task.outcome? = none ∧
      task.Unblocked sys.store := by
  by_cases outside : ∀ other ∈ sys.tasks, other.progress.inside = []
  · -- The last call of all that has not ended is the last one of its thread.
    obtain ⟨task, hmem, goes⟩ := unfinished
    cases hfind : sys.tasks.reverse.find? fun task => task.outcome?.isNone with
    | none =>
        have ended := List.find?_eq_none.mp hfind task (List.mem_reverse.mpr hmem)
        simp [goes] at ended
    | some last =>
        obtain ⟨hlast, after, before, split, ended⟩ := List.find?_eq_some_iff_append.mp hfind
        have split' : sys.tasks = before.reverse ++ last :: after.reverse := by
          rw [← List.reverse_reverse sys.tasks, split]
          simp
        refine ⟨_, last, _, ⟨split', fun inner hinner _ => ?_⟩, by simpa using hlast,
          h.unblocked_of_outside outside (by simp [split'])⟩
        have := ended inner (List.mem_reverse.mp hinner)
        intro none
        simp [none] at this
  · obtain ⟨task, hmem, inside⟩ : ∃ task ∈ sys.tasks, task.progress.inside ≠ [] := by
      simpa using outside
    obtain ⟨goes, consumes, unblocked⟩ := (h.sober task hmem).unblocked_of_inside inside
      (s := sys.store)
    obtain ⟨earlier, later, split⟩ := List.append_of_mem hmem
    refine ⟨earlier, task, later, ⟨split, fun inner hinner thread => ?_⟩, goes, unblocked⟩
    have nested := h.nested
    rw [split] at nested
    have pair := (List.pairwise_cons.mp (List.pairwise_append.mp nested).2.1).1 inner hinner
    rcases pair thread.symm with ended | ended | now
    · exact absurd goes ended
    · exact ended
    · exact absurd now consumes

end Fluent

end System

/-! ## Operations -/

namespace Script.Operation

/-- An operation that stays in a guard as long as its caller likes. -/
def holds : Operation → Bool
  | .hold .. => true
  | _ => false

theorem civil_program (op : Operation) : Action.Civil true op.program := by
  cases hmakes : op.makesDocument with
  | false => exact (tame_program hmakes).civil
  | true =>
      cases op with
      | make c args named =>
          cases c with
          | document =>
              refine civil_bind (tame_ofExcept (Callable.granted_bind _ _ _)).civil fun args => ?_
              change Action.Civil true (Class.construct .document args)
              rw [Class.construct.eq_def]
              split
              · exact civil_bind (civil_documentMake _) fun _ => (tame_pure _).civil
              all_goals first | contradiction | exact (tame_fail rfl).civil
          | _ => cases hmakes
      | build b =>
          have built := Builder.civil_build (w := true) b
          refine ⟨disciplined_bind built.disciplined fun r =>
            disciplined_bind (disciplined_ofExcept r.2) fun _ => rfl, ?_⟩
          refine (built.ends.and (Builder.brings_build b)).bind (fun r h => ?_) fun fault h =>
            granted_error (h.1 fault rfl)
          exact (ends_ofExcept (h.2 r.1 r.2 rfl)).bind (fun _ _ => granted_ok _) fun fault h =>
            granted_error (h fault rfl)
      | call | get | compare | ordinal | iterate | load | source | hold | insert => cases hmakes

end Script.Operation

namespace System

variable {files : FileTree} {sys : System Operation} {t : ThreadId}

/-- What threads can get to from a store without objects, if none of them stays in a guard
between two operations. -/
inductive Reached (files : FileTree) : System Operation → Prop where
  | idle : Reached files (idle files)
  | start {sys : System Operation} (h : Reached files sys) {t : ThreadId} (may : sys.MayCall t)
      (op : Operation) (free : op.holds = false) : Reached files (sys.start t op op.program)
  | turn {sys : System Operation} (h : Reached files sys) {earlier later : List (Task Operation)}
      {task : Task Operation} (turn : sys.Turn earlier task later) :
      Reached files (sys.turn earlier task later)

private theorem disciplined_program (op : Operation) :
    op.program.Disciplined LeavesGuards (fun f => ∀ s, (f s).sources = s.sources) none :=
  op.civil_program.disciplined.mono (fun _ deed s lock => (deed s).keepsGuard lock) fun _ => id

theorem Reached.fluent (h : Reached files sys) : sys.Fluent := by
  induction h with
  | idle =>
      have unknown (lock : LockId) : (System.idle files).store.guard lock = .cooperative false := by
        cases lock <;> rfl
      refine ⟨List.forall_mem_nil _, .nil, fun lock => ?_, fun lock => ?_, List.forall_mem_nil _⟩
      · rw [unknown lock]
        exact fun writing => by cases writing
      · rw [unknown lock]
        trivial
  | start _ may op _ ih => exact ih.start may op (disciplined_program op)
  | turn _ turn ih => exact ih.next turn

/-- What is left of the calls of a thread on its own does not end for want of a guard. -/
theorem Reached.ends (h : Reached files sys) (only : ∀ task ∈ sys.tasks, task.thread = t) :
    ∀ task ∈ sys.tasks, task.phase.program.Ends Granted := by
  induction h with
  | idle => exact List.forall_mem_nil _
  | start _ _ op _ ih =>
      obtain ⟨only, -⟩ := List.forall_mem_append.mp only
      exact List.forall_mem_append.mpr
        ⟨ih only, List.forall_mem_singleton.mpr op.civil_program.ends⟩
  | @turn sys reached earlier later task turn ih =>
      have only : ∀ other ∈ sys.tasks, other.thread = t := by
        obtain ⟨before, after⟩ := List.forall_mem_append.mp only
        obtain ⟨own, after⟩ := List.forall_mem_cons.mp after
        rw [turn.split]
        exact List.forall_mem_append.mpr ⟨before, List.forall_mem_cons.mpr
          ⟨(task.thread_advance _).symm.trans own, after⟩⟩
      have ends := ih only
      have hmem : task ∈ sys.tasks := by simp [turn.split]
      have own : (task.advance sys.store).1.phase.program.Ends Granted := by
        cases goes : task.outcome? with
        | some r =>
            rw [Task.advance_of_outcome goes]
            exact ends task hmem
        | none =>
            have alone := reached.fluent.unblocked_alone turn goes fun other hother =>
              (only other hother).trans (only task hmem).symm
            exact Task.ends_advance (ends task hmem) alone.admitted
      rw [turn.split] at ends
      obtain ⟨before, after⟩ := List.forall_mem_append.mp ends
      exact List.forall_mem_append.mpr
        ⟨before, List.forall_mem_cons.mpr ⟨own, (List.forall_mem_cons.mp after).2⟩⟩

/-- No operation asks for a guard while it is in one, or consumes anything in there.  So, as
long as a call has not ended, some thread can go on with its last call, which has been told
to look again if it has waited, and which is let in if it asks for a guard; and a thread on
its own is never refused one. -/
theorem reached_unblocked :
    (∀ op : Operation, op.program.Disciplined (fun _ => True)
      (fun f => ∀ s, (f s).sources = s.sources) none) ∧
    ∀ (files : FileTree) (sys : System Operation), Reached files sys →
      ((∃ task ∈ sys.tasks, task.outcome? = none) →
        ∃ earlier task later, sys.Turn earlier task later ∧ task.outcome? = none ∧
          task.Unblocked sys.store) ∧
      ∀ t, (∀ task ∈ sys.tasks, task.thread = t) → ∀ task ∈ sys.tasks, ∀ fault,
        task.outcome? = some (.error fault) → fault.isBorrow = false := by
  refine ⟨fun op => op.civil_program.disciplined.mono (fun _ _ => trivial) fun _ => id, ?_⟩
  intro files sys reached
  refine ⟨reached.fluent.goes_on, fun t only task hmem fault hr => ?_⟩
  have ends := reached.ends only task hmem
  obtain ⟨u, op, phase, progress⟩ := task
  cases phase with
  | waiting => cases hr
  | running p =>
      cases p with
      | fail raised =>
          obtain rfl : raised = fault := by simpa [Task.outcome?] using hr
          exact ends raised rfl
      | pure | act | enter | leave | call => cases hr

/-! ## Threads that meet in a list -/

private theorem Reached.turns {s : Store} {earlier : List (Task Operation)} {task : Task Operation}
    (h : Reached files ⟨s, earlier ++ [task]⟩) (n : Nat) :
    Reached files ⟨(Task.move^[n] (task, s)).2, earlier ++ [(Task.move^[n] (task, s)).1]⟩ := by
  induction n with
  | zero => exact h
  | succ n ih =>
      rw [Function.iterate_succ_apply']
      exact ih.turn ⟨rfl, List.forall_mem_nil _⟩

/-- Makes a list that threads share. -/
def sharing : Operation := .make .list [.tuple [], .ownership .shared, .bool true] []

/-- Adds something to it. -/
def adding : Operation := .call (.object (.list ⟨0⟩)) (.named "add") [.text "x"] []

/-- A thread makes a list and begins to add to it; another one wants to add to it as well, and
waits. -/
theorem reached_unblocked_crossing :
    (∃ sys, Reached ⟨[], []⟩ sys ∧ (∀ task ∈ sys.tasks, task.thread = 1) ∧
      (∀ task ∈ sys.tasks, task.outcome?.isSome) ∧
      ∀ task ∈ sys.tasks, ∀ fault, task.outcome? = some (.error fault) → fault.isBorrow = false) ∧
    ∃ sys, Reached ⟨[], []⟩ sys ∧
      (∃ task ∈ sys.tasks, ∃ lock mode next, task.phase = .waiting lock mode next ∧
        (sys.store.guard lock).isNotified task.thread = false) ∧
      ∃ earlier task later, sys.Turn earlier task later ∧ task.outcome? = none ∧
        task.Unblocked sys.store := by
  have bare : Reached ⟨[], []⟩ _ := .idle
  have made := (bare.start (t := 1) (List.forall_mem_nil _) sharing rfl).turns 8
  have added := (made.start (t := 1)
    (List.forall_mem_singleton.mpr fun _ => .inl (Option.isSome_iff_ne_none.mp rfl)) adding
    rfl).turns 3
  have met := (added.start (t := 2) (List.forall_mem_append.mpr
    ⟨List.forall_mem_singleton.mpr nofun, List.forall_mem_singleton.mpr nofun⟩) adding rfl).turns 3
  have last {earlier : List (Task Operation)} {task : Task Operation} : task ∈ earlier ++ [task] :=
    List.mem_append_right _ (List.mem_singleton_self _)
  exact ⟨⟨_, made, List.forall_mem_singleton.mpr rfl, List.forall_mem_singleton.mpr rfl,
      (reached_unblocked.2 _ _ made).2 1 (List.forall_mem_singleton.mpr rfl)⟩,
    ⟨_, met, ⟨_, last, _, _, _, rfl, rfl⟩, (reached_unblocked.2 _ _ met).1 ⟨_, last, rfl⟩⟩⟩

end System

end NinjaFile
