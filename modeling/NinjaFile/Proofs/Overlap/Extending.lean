import NinjaFile.Proofs.Overlap.Runs

/-!
# Extending in one step

A call that extends a list takes its items first, from wherever they come, and then puts all of
them into the list in one step.  So nobody ever finds a part of them there.
-/

namespace NinjaFile.Overlap

open Store Program Script
open Housing (Call)

variable {α β : Type}

/-- A step that leaves what is in lists. -/
def Still (f : Store → Store) : Prop := ∀ s l, ((f s).list l).items = (s.list l).items

theorem every_still {p : Action α} (h : p.Every Aside) : p.Every Still :=
  h.mono fun _ aside s l => (aside.alike s).items l

/-- Among the steps of a program there is at most one that puts anything into lists. -/
def Once : Action α → Prop
  | .pure _ => True
  | .fail _ => True
  | .act f next => (Still f ∧ ∀ s, Once (next s)) ∨ ∀ s, (next s).Every Still
  | .enter _ _ next => ∀ r, Once (next r)
  | .leave _ _ next => Once next
  | .call _ next => Once next

/-! ## Programs -/

theorem once_of_every {p : Action α} (h : p.Every Still) : Once p := by
  induction p with
  | pure a => trivial
  | fail fault => trivial
  | act f next ih => exact .inl ⟨h.1, fun s => ih s (h.2 s)⟩
  | enter lock mode next ih => exact fun r => ih r (h r)
  | leave lock mode next ih => exact ih h
  | call request next ih => exact ih h

theorem once_after {p : Action α} {k : α → Action β} (hp : p.Every Still) (hk : ∀ a, Once (k a)) :
    Once (p >>= k) := by
  rw [bind_eq]
  induction p with
  | pure a => exact hk a
  | fail fault => trivial
  | act f next ih => exact .inl ⟨hp.1, fun s => ih s (hp.2 s)⟩
  | enter lock mode next ih => exact fun r => ih r (hp r)
  | leave lock mode next ih => exact ih hp
  | call request next ih => exact ih hp

theorem once_before {p : Action α} {k : α → Action β} (hp : Once p) (hk : ∀ a, (k a).Every Still) :
    Once (p >>= k) := by
  rw [bind_eq]
  induction p with
  | pure a => exact once_of_every (hk a)
  | fail fault => trivial
  | act f next ih =>
      refine hp.imp (fun h => ⟨h.1, fun s => ih s (h.2 s)⟩) fun h s => ?_
      change (next s >>= k).Every Still
      exact every_bind (h s) hk
  | enter lock mode next ih => exact fun r => ih r (hp r)
  | leave lock mode next ih => exact ih hp
  | call request next ih => exact ih hp

theorem once_extend (l : ListId) (items : List Value) : Once (l.extend items) := by
  intro r
  cases r with
  | some fault => trivial
  | none => exact .inr fun s => trivial

/-- The call takes its items first, and then puts all of them into a list. -/
def Extends : Call → Prop
  | .attach _ (.paths ..) | .extend .. => True
  | _ => False

theorem once_program {call : Call} (h : Extends call) : Once call.program := by
  have part (r : Receiver) (q : Part) : (r.part q).Every Still :=
    every_still ((looks_part r q).aside)
  have place (w : Value) : (Program.ofExcept w.toExtend : Action ListId).Every Still := every_ofExcept _
  cases call with
  | attach r a =>
      cases a with
      | bind b => exact h.elim
      | paths slot v =>
          refine once_before (once_after (part r _) fun w => once_after (place w) fun l => ?_)
            fun _ => trivial
          exact once_after (every_still (aside_arguments v)) fun texts => once_extend l _
  | extend n q items =>
      exact once_before (once_after (part (.node n) q) fun w => once_after (place w) fun l =>
        once_extend l items) fun _ => trivial
  | _ => exact h.elim

/-! ## Runs -/

/-- In the step nothing was put into lists. -/
def Same (step : Store × Store) : Prop := ∀ l, (step.2.list l).items = (step.1.list l).items

/-- Nothing was put into lists yet, or that was done in one step. -/
def Whole (trail : List (Store × Store)) (p : Action Value) : Prop :=
  (∀ step ∈ trail, Same step) ∧ Once p ∨
    trail.Pairwise (fun step step' => Same step ∨ Same step') ∧ p.Every Still

section

variable {trail : List (Store × Store)} {p : Action Value}

theorem Whole.pairwise (h : Whole trail p) : trail.Pairwise fun step step' => Same step ∨ Same step' := by
  obtain ⟨same, -⟩ | ⟨pairwise, -⟩ := h
  · exact List.pairwise_of_forall_mem_list fun step hstep _ _ => .inl (same step hstep)
  · exact pairwise

theorem Whole.act {f : Store → Store} {next : Store → Action Value} (h : Whole trail (.act f next))
    (s : Store) : Whole (trail ++ [(s, f s)]) (next s) := by
  rcases h with ⟨same, ⟨still, once⟩ | others⟩ | ⟨pairwise, still, others⟩
  · refine .inl ⟨fun step mem => ?_, once s⟩
    rcases List.mem_append.mp mem with old | new
    · exact same step old
    · exact List.mem_singleton.mp new ▸ fun l => still s l
  · refine .inr ⟨List.pairwise_append.mpr ⟨?_, List.pairwise_singleton .., fun step mem _ _ => ?_⟩, others s⟩
    · exact List.pairwise_of_forall_mem_list fun step mem _ _ => .inl (same step mem)
    · exact .inl (same step mem)
  · refine .inr ⟨List.pairwise_append.mpr ⟨pairwise, List.pairwise_singleton .., fun _ _ step mem => ?_⟩,
      others s⟩
    exact .inr (List.mem_singleton.mp mem ▸ fun l => still s l)

theorem Whole.next {lock : LockId} {mode : Mode} {next : Option BorrowFault → Action Value}
    (h : Whole trail (.enter lock mode next)) (r : Option BorrowFault) : Whole trail (next r) :=
  h.imp (fun ⟨same, once⟩ => ⟨same, once r⟩) fun ⟨pairwise, still⟩ => ⟨pairwise, still r⟩

end

theorem whole_advance {task : Task Call} (h : Whole task.progress.trail task.phase.program) (s : Store) :
    Whole (task.advance s).1.progress.trail (task.advance s).1.phase.program := by
  obtain ⟨t, call, phase, progress⟩ := task
  have receive {lock : LockId} {mode : Mode} {next : Option BorrowFault → Action Value}
      (entry : Entry Guard) (h : Whole progress.trail (.enter lock mode next)) :
      let task := (Task.receive ⟨t, call, phase, progress⟩ s lock mode next entry).1
      Whole task.progress.trail task.phase.program := by
    cases entry with
    | entered g => exact h.next none
    | refused fault g => exact h.next (some fault)
    | waits g => exact h
  cases phase with
  | waiting lock mode next => exact receive _ h
  | running p =>
      cases p with
      | pure | fail | leave | call => exact h
      | enter lock mode next => exact receive _ h
      | act f next => exact h.act s

variable {files : FileTree} {moves : List Move}

/-- At no time has a call that extends a list put anything into lists in more than one step. -/
theorem extends_once {k : Nat} {task : Task Call} (mem : task ∈ (moment files moves k).tasks)
    (extending : Extends task.call) :
    task.progress.trail.Pairwise fun step step' => Same step ∨ Same step' := by
  have whole : ∀ task ∈ (moment files moves k).tasks, Extends task.call →
      Whole task.progress.trail task.phase.program := by
    refine lasts (P := fun sys => ∀ task ∈ sys.tasks, Extends task.call →
      Whole task.progress.trail task.phase.program) (fun k move found whole => ?_) (Nat.zero_le k)
      fun _ none => nomatch none
    rw [moment_some found]
    intro task mem extending
    obtain ⟨i, found⟩ := List.mem_iff_getElem?.mp mem
    obtain old | ⟨t, request, -, rfl⟩ | ⟨-, mover, old, rfl⟩ := task_next found
    · exact whole task (List.mem_of_getElem? old) extending
    · exact .inl ⟨fun _ none => (List.not_mem_nil none).elim, once_program extending⟩
    · rw [Task.call_advance] at extending
      exact whole_advance (whole mover (List.mem_of_getElem? old) extending) _
  exact (whole task mem extending).pairwise

end NinjaFile.Overlap
