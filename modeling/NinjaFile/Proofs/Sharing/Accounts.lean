import Mathlib.Algebra.GroupWithZero.Nat
import NinjaFile.Proofs.Sharing.Done
import NinjaFile.Proofs.Sharing.Guards

/-!
# Accounts of guards

Every guard of a list is of the kind that the ownership of the list asks for, and it says of
nobody that he is inside who is not.
-/

/-!
## Turns

One step of one call among others, and what it does to the call itself, to the guards and
to what the other calls have.
-/

namespace NinjaFile

open Program Store

namespace Task

variable {κ : Type} {T : Terms Store} {Q : Except Fault Value → Progress Store → Store → Prop}

/-- What a step does to the progress of a call and to the store. -/
inductive Stepped (T : Terms Store) (task : Task κ) (s : Store) :
    Progress Store → Store → Prop where
  | idle : Stepped T task s task.progress s
  | act {s' : Store} (keeps : T.keeps task.progress.trail s s') :
      Stepped T task s (task.progress.note s s') s'
  | enter {lock : LockId} {mode : Mode} {g : Guard} (may : T.enters task.progress s lock mode)
      (asks : (s.guard lock).Asks task.thread mode (.entered g)) :
      Stepped T task s (task.progress.enter lock mode) (s.setGuard lock g)
  | wait {lock : LockId} {mode : Mode} {g : Guard}
      (asks : (s.guard lock).Asks task.thread mode (.waits g)) :
      Stepped T task s task.progress (s.setGuard lock g)
  | leave (lock : LockId) (mode : Mode) :
      Stepped T task s (task.progress.leave lock mode)
        (s.setGuard lock ((s.guard lock).leave task.thread mode))

theorem Stands.asks {task : Task κ} {s : Store} (h : task.Stands T Q s) (hinv : T.inv s)
    {entry : Entry Guard} (hentry : task.entry? s = some entry) :
    ∃ lock mode next, task.phase.program = .enter lock mode next ∧
      T.enters task.progress s lock mode ∧ (s.guard lock).Asks task.thread mode entry := by
  have may {lock : LockId} {mode : Mode} {next : Option BorrowFault → Action Value}
      (hphase : task.phase.program = .enter lock mode next) := h.enters hinv hphase
  obtain ⟨t, call, phase, progress⟩ := task
  cases phase with
  | waiting lock mode next =>
      cases hentry
      exact ⟨lock, mode, next, rfl, may rfl, .recheck⟩
  | running p =>
      cases p with
      | enter lock mode next =>
          cases hentry
          exact ⟨lock, mode, next, rfl, may rfl, .request⟩
      | _ => cases hentry

private theorem stepped_receive {task : Task κ} {s : Store} {lock : LockId} {mode : Mode}
    {next : Option BorrowFault → Action Value} (may : T.enters task.progress s lock mode)
    {entry : Entry Guard} (asks : (s.guard lock).Asks task.thread mode entry)
    (granted : ∀ fault g, entry ≠ .refused fault g) :
    Stepped T task s (task.receive s lock mode next entry).1.progress
      (task.receive s lock mode next entry).2 := by
  cases entry with
  | entered g => exact .enter may asks
  | refused fault g => exact absurd rfl (granted fault g)
  | waits g => exact .wait asks

theorem Stands.stepped {task : Task κ} {s : Store} (h : task.Stands T Q s) (hinv : T.inv s)
    (granted : ∀ fault g, task.entry? s ≠ some (.refused fault g)) :
    Stepped T task s (task.advance s).1.progress (task.advance s).2 := by
  have may {lock : LockId} {mode : Mode} {next : Option BorrowFault → Action Value}
      (hphase : task.phase.program = .enter lock mode next) := h.enters hinv hphase
  obtain ⟨t, call, phase, progress⟩ := task
  have free {entry : Entry Guard} (hentry : entry? ⟨t, call, phase, progress⟩ s = some entry)
      (fault : BorrowFault) (g : Guard) : entry ≠ .refused fault g := by
    rintro rfl
    exact granted fault g hentry
  cases phase with
  | waiting lock mode next => exact stepped_receive (may rfl) .recheck (free rfl)
  | running p =>
      cases p with
      | pure | fail | call => exact .idle
      | act f next =>
          obtain ⟨s₀, hrely, hwp⟩ := h
          exact .act (hwp s hrely hinv).1
      | enter lock mode next => exact stepped_receive (may rfl) .request (free rfl)
      | leave lock mode next => exact .leave lock mode

end Task

end NinjaFile

/-! ## Guards of lists -/

namespace NinjaFile

open Store

namespace Store

theorem guard_setGuard (s : Store) (lock : LockId) (g : Guard) (l : ListId) :
    (s.setGuard lock g).guard (.list l) =
      if lock = .list l ∧ l.index < s.lists.size then g else s.guard (.list l) := by
  simp only [guard, list_setGuard]
  split <;> rfl

theorem guard_of_unknown {s : Store} {l : ListId} (h : ¬ l.index < s.lists.size) :
    s.guard (.list l) = .cooperative false := by
  have : s.lists.get? l.index = none := (s.lists.get?_eq_none_iff _).mpr (Nat.not_lt.mp h)
  simp only [guard, list, Table.get, this]
  rfl

end Store

namespace Guard

variable {g : Guard} {writes writes' : ThreadId → Prop} {reads reads' : ThreadId → Nat}

theorem Free.vouched (h : g.Free) : g.Vouched writes reads := by
  cases g with
  | cooperative writing => exact fun hw => nomatch h.symm.trans hw
  | locking lock =>
      obtain ⟨blocking, rfl⟩ := h
      exact ⟨nofun, fun _ => Nat.zero_le _, List.nodup_nil⟩

theorem Vouched.mono (h : g.Vouched writes reads) (more : ∀ u, writes u → writes' u)
    (count : ∀ u, reads u ≤ reads' u) : g.Vouched writes' reads' := by
  cases g with
  | cooperative writing =>
      intro hw
      obtain ⟨u, hu⟩ := h hw
      exact ⟨u, more u hu⟩
  | locking lock =>
      obtain ⟨writer, held, keys⟩ := h
      exact ⟨fun u hu => more u (writer u hu), fun u => Nat.le_trans (held u) (count u), keys⟩

theorem isLocking_ofOwnership (ownership : Ownership) (blocking : Bool) :
    (ofOwnership ownership blocking).isLocking = true ↔ ownership = .shared := by
  cases ownership <;> simp [ofOwnership, isLocking]

end Guard

namespace Sharing

variable {κ : Type} {a : Arena} {k : Stake} {trail : List (Store × Store)} {s s' : Store}

/-! ## Kinds of guards -/

/-- Lists that are shared have locks, and writers wait for that of the arena. -/
structure Fitted (a : Arena) (s : Store) : Prop where
  kind : ∀ l, (s.guard (.list l)).isLocking = true ↔ (s.list l).ownership = .shared
  blocking : (s.guard (.list a.statements)).isBlocking = true

/-- An act leaves guards alone, except for that of a new list, which is free. -/
theorem Act.guard (act : Act a k trail s s') (l : ListId) :
    (s'.guard (.list l) = s.guard (.list l) ∧ (s'.list l).ownership = (s.list l).ownership) ∨
      l.index = s.lists.size ∧ ∃ ownership blocking,
        s'.guard (.list l) = .ofOwnership ownership blocking ∧
          (s'.list l).ownership = ownership := by
  have appended (j : ListId) (items : List Value) :
      (s.modifyList j (·.append items)).guard (.list l) = s.guard (.list l) ∧
        ((s.modifyList j (·.append items)).list l).ownership = (s.list l).ownership := by
    simp only [Store.guard, list_modifyList]
    split <;> exact ⟨rfl, rfl⟩
  cases act with
  | quiet like same => exact .inl ⟨by rw [Store.guard, Store.guard, Store.list, Store.list, same],
      like.ownership l⟩
  | list ownership blocking items _ =>
      simp only [Store.guard, list_insertList]
      by_cases hl : l.index = s.lists.size
      · rw [if_pos hl]
        exact .inr ⟨hl, ownership, blocking, rfl, rfl⟩
      · rw [if_neg hl]
        exact .inl ⟨rfl, rfl⟩
  | append own ne items _ => exact .inl (appended _ items)
  | insert => exact .inl (appended _ _)
  | node making own =>
      left
      simp only [Store.guard, Store.list, making.lists, and_self]
  | part =>
      left
      simp only [Store.guard, list_setPart, and_self]

theorem Fitted.act (h : Fitted a s) (act : Act a k trail s s') (known : s.Shares a.statements) :
    Fitted a s' where
  kind l := by
    rcases act.guard l with ⟨guard, ownership⟩ | ⟨-, ownership, blocking, guard, heq⟩
    · rw [guard, ownership]
      exact h.kind l
    · rw [guard, heq]
      exact Guard.isLocking_ofOwnership ownership blocking
  blocking := by
    rcases act.guard a.statements with ⟨guard, -⟩ | ⟨hnew, -⟩
    · rw [guard]
      exact h.blocking
    · have := known.known
      omega

theorem Fitted.setGuard (h : Fitted a s) {lock : LockId} {g : Guard}
    (locking : g.isLocking = (s.guard lock).isLocking)
    (blocking : g.isBlocking = (s.guard lock).isBlocking) : Fitted a (s.setGuard lock g) where
  kind l := by
    rw [guard_setGuard, ownership_setGuard, ← h.kind l]
    split
    · next heq => rw [locking, heq.1]
    · rfl
  blocking := by
    rw [guard_setGuard]
    split
    · next heq =>
        rw [blocking, heq.1]
        exact h.blocking
    · exact h.blocking

theorem Fitted.stepped {c : Setting} {task : Task κ} {p : Progress Store} (h : Fitted c.arena s)
    (known : s.Shares c.arena.statements) (stepped : task.Stepped c.terms s p s') :
    Fitted c.arena s' := by
  cases stepped with
  | idle => exact h
  | act keeps => exact h.act keeps known
  | enter may asks =>
      obtain ⟨locking, blocking⟩ := Guard.kind_asks asks
      exact h.setGuard locking blocking
  | wait asks =>
      obtain ⟨locking, blocking⟩ := Guard.kind_asks asks
      exact h.setGuard locking blocking
  | leave lock mode =>
      obtain ⟨locking, blocking⟩ := Guard.kind_leave (s.guard lock) task.thread mode
      exact h.setGuard locking blocking

/-! ## Who is inside -/

/-- A call of the thread is inside a list for writing. -/
def Writes (tasks : List (Task κ)) (l : ListId) (t : ThreadId) : Prop :=
  ∃ task ∈ tasks, task.thread = t ∧ (.list l, .write) ∈ task.progress.inside

/-- How often a call is inside a list for reading, if it is of the thread. -/
def readsOf (l : ListId) (t : ThreadId) (task : Task κ) : Nat :=
  if task.thread = t then task.progress.inside.count (.list l, .read) else 0

/-- How often the calls of a thread are inside a list for reading. -/
def reads (tasks : List (Task κ)) (l : ListId) (t : ThreadId) : Nat :=
  (tasks.map (readsOf l t)).sum

/-- What guards say is borne out by the calls that are inside. -/
def Accounted (tasks : List (Task κ)) (s : Store) : Prop :=
  ∀ l, (s.guard (.list l)).Vouched (Writes tasks l) (reads tasks l)

section

variable {earlier later : List (Task κ)} {task task' : Task κ} {l : ListId}

theorem writes_replace (thread : task'.thread = task.thread)
    (inside : (.list l, .write) ∈ task.progress.inside →
      (.list l, .write) ∈ task'.progress.inside) (t : ThreadId)
    (h : Writes (earlier ++ task :: later) l t) : Writes (earlier ++ task' :: later) l t := by
  obtain ⟨other, hmem, ht, hin⟩ := h
  simp only [List.mem_append, List.mem_cons] at hmem
  rcases hmem with hmem | rfl | hmem
  · exact ⟨other, by simp [hmem], ht, hin⟩
  · exact ⟨task', by simp, thread.trans ht, inside hin⟩
  · exact ⟨other, by simp [hmem], ht, hin⟩

theorem reads_split (l : ListId) (t : ThreadId) :
    reads (earlier ++ task :: later) l t =
      reads earlier l t + readsOf l t task + reads later l t := by
  simp [reads, Nat.add_assoc]

theorem vouched_replace (thread : task'.thread = task.thread)
    (inside : task'.progress.inside = task.progress.inside) {g : Guard}
    (hg : g.Vouched (Writes (earlier ++ task :: later) l) (reads (earlier ++ task :: later) l)) :
    g.Vouched (Writes (earlier ++ task' :: later) l) (reads (earlier ++ task' :: later) l) := by
  refine hg.mono (fun u => writes_replace thread (fun hin => ?_) u) fun u => ?_
  · rwa [inside]
  · exact Nat.le_of_eq (by rw [reads_split, reads_split, readsOf, readsOf, thread, inside])

namespace Accounted

variable {lock : LockId} {mode : Mode} (h : Accounted (earlier ++ task :: later) s)
  (thread : task'.thread = task.thread)

include h thread

theorem enter {g : Guard} (progress : task'.progress = task.progress.enter lock mode)
    (asks : (s.guard lock).Asks task.thread mode (.entered g)) :
    Accounted (earlier ++ task' :: later) (s.setGuard lock g) := by
  intro l
  have more : ∀ u, Writes (earlier ++ task :: later) l u → Writes (earlier ++ task' :: later) l u :=
    fun u => writes_replace thread (fun hin => progress ▸ List.mem_cons_of_mem _ hin) u
  have counted (u : ThreadId) : reads (earlier ++ task :: later) l u +
      (if (lock, mode) = (.list l, .read) ∧ u = task.thread then 1 else 0) ≤
        reads (earlier ++ task' :: later) l u := by
    rw [reads_split, reads_split, readsOf, readsOf, thread, progress, Progress.inside_enter,
      List.count_cons]
    simp only [beq_iff_eq, eq_comm (a := u)]
    by_cases hu : task.thread = u <;> by_cases hl : (lock, mode) = (.list l, .read) <;>
      simp only [hu, hl, if_true, if_false, and_true, and_false] <;> omega
  rw [guard_setGuard]
  split
  · next heq =>
      obtain ⟨rfl, -⟩ := heq
      refine (h l).entered asks more (fun hmode => ?_) fun u => ?_
      · exact ⟨task', by simp, thread, by simp [progress, hmode]⟩
      · have := counted u
        simpa using this
  · exact (h l).mono more fun u => Nat.le_trans (Nat.le_add_right _ _) (counted u)

theorem leave (progress : task'.progress = task.progress.leave lock mode) :
    Accounted (earlier ++ task' :: later)
      (s.setGuard lock ((s.guard lock).leave task.thread mode)) := by
  intro l
  have more (hne : (lock, mode) ≠ (.list l, .write)) : ∀ u,
      Writes (earlier ++ task :: later) l u → Writes (earlier ++ task' :: later) l u := fun u =>
    writes_replace thread (fun hin => progress ▸ (List.mem_erase_of_ne hne.symm).mpr hin) u
  have counted (u : ThreadId) : reads (earlier ++ task :: later) l u ≤
      reads (earlier ++ task' :: later) l u +
        (if (lock, mode) = (.list l, .read) ∧ u = task.thread then 1 else 0) := by
    rw [reads_split, reads_split, readsOf, readsOf, thread, progress, Progress.inside_leave,
      List.count_erase]
    simp only [beq_iff_eq, eq_comm (a := u)]
    by_cases hu : task.thread = u <;> by_cases hl : (lock, mode) = (.list l, .read) <;>
      simp only [hu, hl, if_true, if_false, and_true, and_false] <;> omega
  rw [guard_setGuard]
  split
  · next heq =>
      obtain ⟨rfl, -⟩ := heq
      refine (h l).leave task.thread mode (fun hmode => more (by simp [hmode])) fun u => ?_
      have := counted u
      simpa using this
  · next hne =>
      by_cases known : l.index < s.lists.size
      · have other : lock ≠ .list l := fun heq => hne ⟨heq, known⟩
        refine (h l).mono (more (by simp [other])) fun u => ?_
        have := counted u
        simpa [other] using this
      · rw [guard_of_unknown known]
        exact Guard.Free.vouched rfl

/-- What is said of guards is borne out after a step as well. -/
theorem stepped {c : Setting} (stepped : task.Stepped c.terms s task'.progress s') :
    Accounted (earlier ++ task' :: later) s' := by
  generalize progress : task'.progress = p at stepped
  cases stepped with
  | idle => exact fun l => vouched_replace thread (by rw [progress]) (h l)
  | act keeps =>
      intro l
      rcases Act.guard keeps l with ⟨guard, -⟩ | ⟨-, ownership, blocking, guard, -⟩
      · rw [guard]
        exact vouched_replace thread (by rw [progress]; rfl) (h l)
      · rw [guard]
        exact (Guard.free_ofOwnership ownership blocking).vouched
  | wait asks =>
      intro l
      rw [guard_setGuard]
      split
      · next heq =>
          obtain ⟨rfl, -⟩ := heq
          exact vouched_replace thread (by rw [progress]) ((h l).waits asks)
      · exact vouched_replace thread (by rw [progress]) (h l)
  | enter may asks => exact h.enter thread progress asks
  | leave lock mode => exact h.leave thread progress

end Accounted

end

end Sharing

end NinjaFile
