import NinjaFile.Proofs.Liveness.Waiting

/-!
# Threads that take turns

Any number of threads make calls on one store.  A thread goes on with the call that it made
last, and begins another one in the middle of that only where the call runs steps of a
source.  As no call is inside a guard there, a thread that asks for a guard is in none, and
somebody can always go on.
-/

namespace NinjaFile

open Program Store

variable {κ : Type}

namespace Task

/-- The call takes items from a source next, or has one ended: steps of the source come in
between. -/
def Consumes (task : Task κ) : Prop :=
  match task.phase with
  | .running (.act f _) => ¬ ∀ s, (f s).sources = s.sources
  | .running (.call _ _) => True
  | _ => False

/-- Nothing keeps a call from going on: if it has waited, it has been told to look again, and
the guard that it asks for lets it in. -/
structure Unblocked (task : Task κ) (s : Store) : Prop where
  notified : ∀ lock mode next, task.phase = .waiting lock mode next →
    (s.guard lock).isNotified task.thread = true
  admitted : ∀ entry, task.entry? s = some entry → ∃ g, entry = .entered g

/-- A call that is in one guard at a time, and consumes nothing in there. -/
abbrev Sober (task : Task κ) : Prop :=
  task.Disciplined LeavesGuards fun f => ∀ s, (f s).sources = s.sources

namespace Sober

variable {task : Task κ} {s : Store}

theorem outside_of_consumes (h : task.Sober) (consumes : task.Consumes) :
    task.progress.inside = [] := by
  obtain ⟨held, now, inside⟩ := h
  obtain ⟨t, call, phase, progress⟩ := task
  cases phase with
  | waiting => exact consumes.elim
  | running p =>
      cases p with
      | act f next =>
          cases held with
          | none => exact inside
          | some entered => exact absurd (now.2.1 (Option.some_ne_none _)) consumes
      | call request next =>
          obtain ⟨rfl, -⟩ := now
          exact inside
      | pure | fail | enter | leave => exact consumes.elim

theorem outside_of_enter (h : task.Sober) {lock : LockId} {mode : Mode}
    {next : Option BorrowFault → Action Value} (hphase : task.phase.program = .enter lock mode next) :
    task.progress.inside = [] := by
  obtain ⟨held, now, inside⟩ := h
  rw [hphase] at now
  obtain ⟨rfl, -⟩ := now
  exact inside

/-- A call that is in a guard goes on. -/
theorem unblocked_of_inside (h : task.Sober) (inside : task.progress.inside ≠ []) :
    task.outcome? = none ∧ ¬ task.Consumes ∧ task.Unblocked s := by
  have consumes : ¬ task.Consumes := fun c => inside (h.outside_of_consumes c)
  have ended : task.outcome? = none := by
    cases hr : task.outcome? with
    | none => rfl
    | some r => exact absurd (h.outside_of_ended hr) inside
  have enter {lock : LockId} {mode : Mode} {next : Option BorrowFault → Action Value} :
      task.phase.program ≠ .enter lock mode next := fun hphase => inside (h.outside_of_enter hphase)
  refine ⟨ended, consumes, ?_, ?_⟩
  · intro lock mode next hphase
    exact absurd (congrArg Phase.program hphase) enter
  · intro entry hentry
    obtain ⟨t, call, phase, progress⟩ := task
    cases phase with
    | waiting lock mode next => exact absurd rfl enter
    | running p =>
        cases p with
        | enter lock mode next => exact absurd rfl enter
        | pure | fail | act | leave | call => cases hentry

end Sober

/-! ## One turn -/

/-- What a turn of a call does to the guards it is in and to those of the store. -/
inductive Turned (task : Task κ) (s : Store) : Task κ → Store → Prop where
  | acts {task' : Task κ} {s' : Store} (inside : task'.progress.inside = task.progress.inside)
      (runs : ∀ lock mode next, task'.phase ≠ .waiting lock mode next)
      (guards : ∀ lock, s.KeepsGuard s' lock) : Turned task s task' s'
  | enters {task' : Task κ} {lock : LockId} {mode : Mode} {g : Guard}
      (outside : task.progress.inside = []) (inside : task'.progress.inside = [(lock, mode)])
      (asks : (s.guard lock).Asks task.thread mode (.entered g))
      (runs : ∀ lock mode next, task'.phase ≠ .waiting lock mode next) :
      Turned task s task' (s.setGuard lock g)
  | refused {task' : Task κ} {lock : LockId} {mode : Mode} {fault : BorrowFault} {g : Guard}
      (inside : task'.progress.inside = task.progress.inside)
      (asks : (s.guard lock).Asks task.thread mode (.refused fault g))
      (runs : ∀ lock mode next, task'.phase ≠ .waiting lock mode next) :
      Turned task s task' (s.setGuard lock g)
  | waits {task' : Task κ} {lock : LockId} {mode : Mode} {g : Guard}
      {next : Option BorrowFault → Action Value}
      (inside : task'.progress.inside = task.progress.inside)
      (asks : (s.guard lock).Asks task.thread mode (.waits g))
      (waiting : task'.phase = .waiting lock mode next) : Turned task s task' (s.setGuard lock g)
  | leaves {task' : Task κ} {lock : LockId} {mode : Mode}
      (inside : task.progress.inside = [(lock, mode)]) (outside : task'.progress.inside = [])
      (runs : ∀ lock mode next, task'.phase ≠ .waiting lock mode next) :
      Turned task s task' (s.setGuard lock ((s.guard lock).leave task.thread mode))

theorem Sober.turned {task : Task κ} (h : task.Sober) (s : Store) :
    task.Turned s (task.advance s).1 (task.advance s).2 := by
  obtain ⟨held, now, inside⟩ := h
  obtain ⟨t, call, phase, progress⟩ := task
  have same (lock : LockId) : s.KeepsGuard s lock := .inl rfl
  have receive {lock : LockId} {mode : Mode} {next : Option BorrowFault → Action Value}
      {entry : Entry Guard} (asks : (s.guard lock).Asks t mode entry) (phase : Phase)
      (outside : progress.inside = []) :
      Turned ⟨t, call, phase, progress⟩ s
        (receive ⟨t, call, phase, progress⟩ s lock mode next entry).1
        (receive ⟨t, call, phase, progress⟩ s lock mode next entry).2 := by
    cases entry with
    | entered g => exact .enters outside (congrArg (List.cons (lock, mode)) outside) asks nofun
    | refused fault g => exact .refused rfl asks nofun
    | waits g => exact .waits rfl asks rfl
  cases phase with
  | waiting lock mode next =>
      obtain ⟨rfl, -⟩ := now
      exact receive .recheck _ inside
  | running p =>
      cases p with
      | pure v => exact .acts rfl nofun same
      | fail fault => exact .acts rfl nofun same
      | act f next => exact .acts rfl nofun (now.1 s)
      | enter lock mode next =>
          obtain ⟨rfl, -⟩ := now
          exact receive .request _ inside
      | leave lock mode next =>
          obtain ⟨rfl, -⟩ := now
          refine .leaves inside ?_ nofun
          change progress.inside.erase (lock, mode) = []
          rw [show progress.inside = [(lock, mode)] from inside, List.erase_cons_head]
      | call request next => exact .acts rfl nofun same

/-- What is left of a call ends as it should, if it was let in where it asked. -/
theorem ends_advance {Q : Except Fault Value → Prop} {task : Task κ} {s : Store}
    (h : task.phase.program.Ends Q)
    (admitted : ∀ entry, task.entry? s = some entry → ∃ g, entry = .entered g) :
    (task.advance s).1.phase.program.Ends Q := by
  obtain ⟨t, call, phase, progress⟩ := task
  have receive {lock : LockId} {mode : Mode} {next : Option BorrowFault → Action Value}
      {entry : Entry Guard} (h : (Program.enter lock mode next).Ends Q)
      (admitted : ∃ g, entry = .entered g) (phase : Phase) :
      (receive ⟨t, call, phase, progress⟩ s lock mode next entry).1.phase.program.Ends Q := by
    obtain ⟨g, rfl⟩ := admitted
    exact h
  cases phase with
  | waiting lock mode next => exact receive h (admitted _ rfl) _
  | running p =>
      cases p with
      | pure | fail | leave | call => exact h
      | act f next => exact h s
      | enter lock mode next => exact receive h (admitted _ rfl) _

end Task

/-! ## Guards after a turn -/

private theorem guard_setGuard_cases (s : Store) (lock : LockId) (g : Guard) (other : LockId) :
    lock = other ∧ (s.setGuard lock g).guard other = g ∨
      (s.setGuard lock g).guard other = s.guard other ∧ (lock ≠ other ∨ (s.guard other).Free) := by
  by_cases same : lock = other
  · subst same
    rcases guard_setGuard_self s lock g with h | ⟨h, free⟩
    · exact .inl ⟨rfl, h⟩
    · exact .inr ⟨h, .inr free⟩
  · exact .inr ⟨guard_setGuard_of_ne same, .inl same⟩

theorem Task.Turned.settled {task task' : Task κ} {s s' : Store} (h : task.Turned s task' s')
    {lock : LockId} (settled : (s.guard lock).Settled) : (s'.guard lock).Settled := by
  have set {asked : LockId} {g : Guard} (after : (s.guard asked).Settled → g.Settled) :
      ((s.setGuard asked g).guard lock).Settled := by
    rcases guard_setGuard_cases s asked g lock with ⟨rfl, heq⟩ | ⟨heq, -⟩ <;> rw [heq]
    · exact after settled
    · exact settled
  cases h with
  | acts _ _ guards =>
      rcases guards lock with same | ⟨-, free⟩
      · exact same ▸ settled
      · exact free.settled
  | enters _ _ asks => exact set fun h => h.asks asks
  | refused _ asks => exact set fun h => h.asks asks
  | waits _ asks => exact set fun h => h.asks asks
  | leaves => exact set fun h => h.leave _ _

theorem Task.Turned.awaitedBy {task task' : Task κ} {s s' : Store} (h : task.Turned s task' s')
    {lock : LockId} {u : ThreadId} (other : u ≠ task.thread)
    (awaited : (s.guard lock).AwaitedBy u) : (s'.guard lock).AwaitedBy u := by
  have set {asked : LockId} {g : Guard} (after : (s.guard asked).AwaitedBy u → g.AwaitedBy u) :
      ((s.setGuard asked g).guard lock).AwaitedBy u := by
    rcases guard_setGuard_cases s asked g lock with ⟨rfl, heq⟩ | ⟨heq, -⟩ <;> rw [heq]
    · exact after awaited
    · exact awaited
  cases h with
  | acts _ _ guards =>
      rcases guards lock with same | ⟨none, -⟩
      · exact same ▸ awaited
      · rw [none] at awaited
        exact awaited.elim
  | enters _ _ asks => exact set fun h => h.asks other asks
  | refused _ asks => exact set fun h => h.asks other asks
  | waits _ asks => exact set fun h => h.asks other asks
  | leaves => exact set fun h => h.leave _ _

theorem Task.Turned.awaited {task task' : Task κ} {s s' : Store} (h : task.Turned s task' s')
    {lock : LockId} {mode : Mode} {next : Option BorrowFault → Action Value}
    (waiting : task'.phase = .waiting lock mode next) : (s'.guard lock).AwaitedBy task.thread := by
  cases h with
  | acts _ runs | enters _ _ _ runs | refused _ _ runs | leaves _ _ runs =>
      exact absurd waiting (runs _ _ _)
  | @waits _ _ g _ _ asks now =>
      cases now.symm.trans waiting
      rcases guard_setGuard_cases s lock g lock with ⟨-, heq⟩ | ⟨-, ne | free⟩
      · rw [heq]
        exact Guard.awaitedBy_of_waits asks
      · exact absurd rfl ne
      · obtain ⟨_, ⟨⟩, -⟩ := free.asks asks

/-! ## Who is inside -/

/-- A call of the thread is inside a guard. -/
def Within (tasks : List (Task κ)) (lock : LockId) (mode : Mode) (t : ThreadId) : Prop :=
  ∃ task ∈ tasks, task.thread = t ∧ (lock, mode) ∈ task.progress.inside

open Classical in
/-- A thread that is inside a guard for reading is so once. -/
noncomputable def readings (tasks : List (Task κ)) (lock : LockId) (t : ThreadId) : Nat :=
  if Within tasks lock .read t then 1 else 0

/-- What a guard says of who is inside is so. -/
def Sincere (tasks : List (Task κ)) (lock : LockId) (g : Guard) : Prop :=
  g.Vouched (Within tasks lock .write) (readings tasks lock)

section Sincere

variable {tasks tasks' : List (Task κ)} {lock : LockId} {g : Guard} {t : ThreadId}

private theorem readings_le {n : Nat} (h : Within tasks lock .read t → 1 ≤ n) :
    readings tasks lock t ≤ n := by
  rw [readings]
  split
  · next within => exact h within
  · exact Nat.zero_le n

private theorem one_le_readings (h : Within tasks lock .read t) : 1 ≤ readings tasks lock t :=
  Nat.le_of_eq (if_pos h).symm

theorem Sincere.mono (h : Sincere tasks lock g)
    (more : ∀ mode t, Within tasks lock mode t → Within tasks' lock mode t) :
    Sincere tasks' lock g :=
  Guard.Vouched.mono h (more .write) fun t =>
    readings_le fun within => one_le_readings (more .read t within)

/-- Nobody is in a guard that no call is in. -/
theorem Sincere.idle (h : Sincere tasks lock g) (settled : g.Settled)
    (outside : ∀ mode t, ¬ Within tasks lock mode t) : g.Idle :=
  Guard.Vouched.idle h settled (outside .write) fun t => if_neg (outside .read t)

end Sincere

section Replace

variable {earlier later : List (Task κ)} {task task' : Task κ} {lock : LockId} {mode : Mode}
  {t : ThreadId}

theorem within_iff (outside : ∀ other ∈ earlier ++ later, other.thread = task.thread →
      other.progress.inside = []) :
    Within (earlier ++ task :: later) lock mode t ↔
      t = task.thread ∧ (lock, mode) ∈ task.progress.inside ∨
        t ≠ task.thread ∧ Within (earlier ++ later) lock mode t := by
  constructor
  · rintro ⟨inner, hmem, rfl, inside⟩
    rcases List.mem_append.mp hmem with h | h
    · have h := List.mem_append_left later h
      refine .inr ⟨fun thread => ?_, inner, h, rfl, inside⟩
      rw [outside inner h thread] at inside
      cases inside
    · rcases List.mem_cons.mp h with rfl | h
      · exact .inl ⟨rfl, inside⟩
      · have h := List.mem_append_right earlier h
        refine .inr ⟨fun thread => ?_, inner, h, rfl, inside⟩
        rw [outside inner h thread] at inside
        cases inside
  · rintro (⟨rfl, inside⟩ | ⟨-, inner, hmem, rfl, inside⟩)
    · exact ⟨task, by simp, rfl, inside⟩
    · refine ⟨inner, ?_, rfl, inside⟩
      rcases List.mem_append.mp hmem with h | h <;> simp [h]

section Turn

variable {s s' : Store} (thread : task'.thread = task.thread)
  (outside : ∀ other ∈ earlier ++ later, other.thread = task.thread → other.progress.inside = [])

include thread outside

private theorem within_replace
    (own : (lock, mode) ∈ task.progress.inside → (lock, mode) ∈ task'.progress.inside)
    (within : Within (earlier ++ task :: later) lock mode t) :
    Within (earlier ++ task' :: later) lock mode t := by
  refine (within_iff fun other hmem heq => outside other hmem (heq.trans thread)).mpr ?_
  rw [thread]
  exact ((within_iff outside).mp within).imp_left fun h => ⟨h.1, own h.2⟩

private theorem Sincere.entered (h : Sincere (earlier ++ task :: later) lock (s.guard lock))
    {g : Guard} (asks : (s.guard lock).Asks task.thread mode (.entered g))
    (out : task.progress.inside = []) (inside : task'.progress.inside = [(lock, mode)]) :
    Sincere (earlier ++ task' :: later) lock g := by
  have own (mode : Mode) (hin : (lock, mode) ∈ task.progress.inside) :
      (lock, mode) ∈ task'.progress.inside := by
    rw [out] at hin
    cases hin
  have within : Within (earlier ++ task' :: later) lock mode task.thread :=
    ⟨task', by simp, thread, by simp [inside]⟩
  refine Guard.Vouched.entered h asks (fun _ => within_replace thread outside (own .write)) ?_
    fun u => ?_
  · rintro rfl
    exact within
  · split
    · next hread =>
        obtain ⟨rfl, rfl⟩ := hread
        have none : readings (earlier ++ task :: later) lock task.thread = 0 :=
          if_neg fun before => by
            rcases (within_iff outside).mp before with ⟨-, hin⟩ | ⟨ne, -⟩
            · rw [out] at hin
              cases hin
            · exact ne rfl
        rw [none]
        exact one_le_readings within
    · exact readings_le fun before =>
        one_le_readings (within_replace thread outside (own .read) before)

private theorem Sincere.left (h : Sincere (earlier ++ task :: later) lock (s.guard lock))
    (inside : task.progress.inside = [(lock, mode)]) :
    Sincere (earlier ++ task' :: later) lock ((s.guard lock).leave task.thread mode) := by
  have own {other : Mode} (ne : other ≠ mode) (hin : (lock, other) ∈ task.progress.inside) :
      (lock, other) ∈ task'.progress.inside := by
    rw [inside, List.mem_singleton] at hin
    exact absurd (congrArg Prod.snd hin) ne
  refine Guard.Vouched.leave h _ _ ?_ fun u => readings_le fun before => ?_
  · rintro rfl u
    exact within_replace thread outside (own (by decide))
  by_cases reads : mode = .read ∧ u = task.thread
  · simp [reads]
  rw [if_neg reads]
  refine one_le_readings ?_
  by_cases hmode : mode = .read
  · subst hmode
    refine (within_iff fun other hmem heq => outside other hmem (heq.trans thread)).mpr ?_
    rw [thread]
    rcases (within_iff outside).mp before with ⟨hu, -⟩ | elsewhere
    · exact absurd ⟨rfl, hu⟩ reads
    · exact .inr elsewhere
  · exact within_replace thread outside (own fun heq => hmode heq.symm) before

/-- What guards say is so after a turn as well. -/
theorem Sincere.turned (h : Sincere (earlier ++ task :: later) lock (s.guard lock))
    (turned : task.Turned s task' s') :
    Sincere (earlier ++ task' :: later) lock (s'.guard lock) := by
  have mono {g : Guard} (own : ∀ mode, (lock, mode) ∈ task.progress.inside →
      (lock, mode) ∈ task'.progress.inside) (h : Sincere (earlier ++ task :: later) lock g) :
      Sincere (earlier ++ task' :: later) lock g :=
    h.mono fun mode _ => within_replace thread outside (own mode)
  have set {asked : LockId} {g : Guard}
      (own : asked ≠ lock → ∀ mode, (lock, mode) ∈ task.progress.inside →
        (lock, mode) ∈ task'.progress.inside)
      (after : asked = lock → Sincere (earlier ++ task' :: later) lock g) :
      Sincere (earlier ++ task' :: later) lock ((s.setGuard asked g).guard lock) := by
    rcases guard_setGuard_cases s asked g lock with ⟨rfl, heq⟩ | ⟨heq, ne | free⟩ <;> rw [heq]
    · exact after rfl
    · exact mono (own ne) h
    · exact free.vouched
  have same (inside : task'.progress.inside = task.progress.inside) (mode : Mode)
      (h : (lock, mode) ∈ task.progress.inside) : (lock, mode) ∈ task'.progress.inside :=
    inside ▸ h
  cases turned with
  | acts inside _ guards =>
      rcases guards lock with eq | ⟨-, free⟩
      · rw [eq]
        exact mono (same inside) h
      · exact free.vouched
  | refused inside asks =>
      refine set (fun _ => same inside) ?_
      rintro rfl
      exact mono (same inside) (Guard.Vouched.refused h asks)
  | waits inside asks =>
      refine set (fun _ => same inside) ?_
      rintro rfl
      exact mono (same inside) (Guard.Vouched.waits h asks)
  | enters out inside asks =>
      refine set (fun _ mode hin => ?_) ?_
      · rw [out] at hin
        cases hin
      · rintro rfl
        exact h.entered thread outside asks out inside
  | leaves inside =>
      refine set (fun ne mode hin => ?_) ?_
      · rw [inside, List.mem_singleton] at hin
        exact absurd (congrArg Prod.fst hin).symm ne
      · rintro rfl
        exact h.left thread outside inside

end Turn

end Replace

end NinjaFile
