import NinjaFile.Proofs.Program.Among
import NinjaFile.Proofs.Sharing.Accounts
import NinjaFile.Proofs.Store.Civil

/-!
# Guards that are found free again

A disciplined call is inside one guard at a time and leaves it.  If a guard is free when the
call begins, and others do not stay in it either, then it is free when the call has ended,
however it has ended: everyone can go on to use what it guards.
-/

namespace NinjaFile

open Program Store

namespace Guard

variable {g : Guard} {t : ThreadId} {mode : Mode}

theorem Free.asks (h : g.Free) {entry : Entry Guard} (asks : g.Asks t mode entry) :
    ∃ g', entry = .entered g' ∧ g'.leave t mode = g := by
  have request := h.request t mode
  cases asks with
  | request => exact request
  | recheck =>
      cases g with
      | cooperative writing => exact request
      | locking lock =>
          obtain ⟨blocking, rfl⟩ := h
          cases mode <;> exact request

theorem Free.leave (h : g.Free) (t : ThreadId) (mode : Mode) : (g.leave t mode).Free := by
  cases g with
  | cooperative writing => cases mode <;> first | rfl | exact h
  | locking lock =>
      obtain ⟨blocking, rfl⟩ := h
      cases mode <;> exact ⟨blocking, rfl⟩

end Guard

namespace Store

variable {s : Store} {lock other : LockId} {g : Guard}

theorem guard_setGuard_of_ne (h : lock ≠ other) : (s.setGuard lock g).guard other = s.guard other := by
  cases other with
  | list l => rw [guard_setGuard, if_neg fun same => h same.1]
  | free id =>
      cases lock with
      | list l => rfl
      | free id' =>
          have ne : id'.index ≠ id.index := by
            rintro heq
            cases id; cases id'
            exact h (congrArg _ (congrArg _ heq))
          simp only [guard, setGuard, Table.get, Table.get?_modify, if_neg ne]

theorem guard_setGuard_self (s : Store) (lock : LockId) (g : Guard) :
    (s.setGuard lock g).guard lock = g ∨
      (s.setGuard lock g).guard lock = s.guard lock ∧ (s.guard lock).Free := by
  cases lock with
  | list l =>
      by_cases known : l.index < s.lists.size
      · exact .inl (by rw [guard_setGuard, if_pos ⟨rfl, known⟩])
      · refine .inr ⟨by rw [guard_setGuard, if_neg fun h => known h.2], ?_⟩
        rw [guard_of_unknown known]
        rfl
  | free id =>
      simp only [guard, setGuard, Table.get, Table.get?_modify, if_true]
      cases s.guards.get? id.index with
      | none => exact .inr ⟨rfl, rfl⟩
      | some g' => exact .inl rfl

end Store

/-- A guard is what it was, or it is a new one that is free. -/
def Store.KeepsGuard (s s' : Store) (lock : LockId) : Prop :=
  s'.guard lock = s.guard lock ∨ s.guard lock = .cooperative false ∧ (s'.guard lock).Free

/-- A step leaves guards alone, except that new ones are free. -/
def LeavesGuards (f : Store → Store) : Prop := ∀ (s : Store) lock, s.KeepsGuard (f s) lock

namespace Store

variable {w : Bool} {s s' : Store}

private theorem guard_assignAll (s : Store) (i : Identity) (attributes : List (String × Value))
    (lock : LockId) : (s.assignAll i attributes).guard lock = s.guard lock := by
  rw [assignAll_eq]
  cases lock <;> rfl

private theorem guard_insertList (s : Store) {l : GuardedList} (free : l.guard.Free) (lock : LockId) :
    s.KeepsGuard (s.insertList l).2 lock := by
  cases lock with
  | free id => exact .inl rfl
  | list j =>
      by_cases hj : j.index = s.lists.size
      · refine .inr ⟨guard_of_unknown (Nat.not_lt.mpr (Nat.le_of_eq hj.symm)), ?_⟩
        rw [guard, list_insertList, if_pos hj]
        exact free
      · left
        rw [guard, list_insertList, if_neg hj]
        rfl

theorem Effect.keepsGuard (h : Effect w s s') (lock : LockId) : s.KeepsGuard s' lock := by
  cases h with
  | append id items =>
      cases lock with
      | free id => exact .inl rfl
      | list j =>
          left
          rw [Store.guard, Store.guard, list_modifyList]
          split <;> rfl
  | part node part list => cases node <;> cases part <;> cases lock <;> exact .inl rfl
  | list l free =>
      rw [KeepsGuard, guard_assignAll, guard_assignAll]
      exact guard_insertList s free lock
  | arena l free =>
      rw [KeepsGuard, guard_assignAll]
      exact guard_insertList s free lock
  | build | pool =>
      rw [KeepsGuard, guard_assignAll]
      cases lock <;> exact .inl rfl
  | guard g free =>
      rw [KeepsGuard, guard_assignAll]
      cases lock with
      | list j => exact .inl rfl
      | free id =>
          simp only [Store.guard, insertGuard, Table.get, Table.get?_insert]
          by_cases hid : id.index = s.guards.size
          · have unknown : s.guards.get? id.index = none :=
              (s.guards.get?_eq_none_iff _).mpr (Nat.le_of_eq hid.symm)
            rw [if_pos hid, unknown]
            exact .inr ⟨rfl, free⟩
          · rw [if_neg hid]
            exact .inl rfl
  | serial attributes =>
      left
      refine (guard_assignAll s.nextSerial.2 (.serial s.serial) attributes lock).trans ?_
      cases lock <;> rfl
  | _ => cases lock <;> exact .inl rfl

theorem Deed.keepsGuard (h : Deed w s s') (lock : LockId) : s.KeepsGuard s' lock := by
  cases h with
  | effect h => exact h.keepsGuard lock
  | document r => cases lock <;> exact .inl rfl

end Store

/-- Others stay in no guard that was free, and do not touch one that somebody is in. -/
def Mannerly (env : Store → Store → Prop) : Prop :=
  ∀ s s', env s s' → ∀ lock, ((s.guard lock).Free → (s'.guard lock).Free) ∧
    (¬ (s.guard lock).Free → s'.guard lock = s.guard lock)

namespace Task

variable {κ : Type} {env : Store → Store → Prop} {task task' : Task κ} {s s' : Store}
  {quiet : (Store → Store) → Prop} {lock : LockId}

/-- The guard is free, or it will be when the call leaves it. -/
def Frees (task : Task κ) (lock : LockId) (held : Option (LockId × Mode)) (s : Store) : Prop :=
  (∀ mode, held = some (lock, mode) → ((s.guard lock).leave task.thread mode).Free) ∧
    ((∀ mode, held ≠ some (lock, mode)) → (s.guard lock).Free)

theorem frees_none {task : Task κ} : task.Frees lock none s ↔ (s.guard lock).Free :=
  ⟨fun h => h.2 nofun, fun free => ⟨nofun, fun _ => free⟩⟩

private theorem frees_receive {task : Task κ} {s : Store} {asked : LockId} {mode : Mode}
    {next : Option BorrowFault → Action Value} {entry : Entry Guard}
    (asks : (s.guard asked).Asks task.thread mode entry) (free : (s.guard lock).Free)
    (disciplined : (Program.enter asked mode next).Disciplined LeavesGuards quiet none) :
    ∃ held, (task.receive s asked mode next entry).1.phase.program.Disciplined LeavesGuards quiet
        held ∧ (task.receive s asked mode next entry).1.Frees lock held
          (task.receive s asked mode next entry).2 := by
  obtain ⟨-, entered, refused⟩ := disciplined
  by_cases same : asked = lock
  · subst same
    obtain ⟨g, rfl, left⟩ := free.asks asks
    refine ⟨_, entered, fun mode' heq => ?_, fun h => absurd rfl (h mode)⟩
    cases heq
    rcases guard_setGuard_self s asked g with heq | ⟨heq, free⟩
    · change (((s.setGuard asked g).guard asked).leave task.thread mode).Free
      rw [heq, left]
      exact free
    · change (((s.setGuard asked g).guard asked).leave task.thread mode).Free
      rw [heq]
      exact free.leave _ _
  · have outside (g : Guard) : ((s.setGuard asked g).guard lock).Free := by
      rw [guard_setGuard_of_ne same]
      exact free
    cases entry with
    | entered g =>
        refine ⟨_, entered, fun mode' heq => ?_, fun _ => outside g⟩
        cases heq
        exact absurd rfl same
    | refused fault g => exact ⟨none, refused fault, frees_none.mpr (outside g)⟩
    | waits g =>
        exact ⟨none, ⟨rfl, entered, refused⟩, frees_none.mpr (outside g)⟩

private theorem frees_advance {task : Task κ} {held : Option (LockId × Mode)}
    (now : task.phase.program.Disciplined LeavesGuards quiet held)
    (frees : task.Frees lock held s) :
    ∃ held, (task.advance s).1.phase.program.Disciplined LeavesGuards quiet held ∧
      (task.advance s).1.Frees lock held (task.advance s).2 := by
  obtain ⟨inside, outside⟩ := frees
  have out (heq : held = none) : (s.guard lock).Free := outside fun mode h => by
    rw [heq] at h
    cases h
  obtain ⟨t, call, phase, progress⟩ := task
  cases phase with
  | waiting asked mode next =>
      have idle : held = none := now.1
      subst idle
      exact frees_receive .recheck (out rfl) now
  | running p =>
      cases p with
      | pure v => exact ⟨held, now, inside, outside⟩
      | fail fault => exact ⟨held, now, inside, outside⟩
      | act f next =>
          refine ⟨held, now.2.2 s, fun mode heq => ?_, fun h => ?_⟩
          · rcases now.1 s lock with same | ⟨-, free⟩
            · exact (congrArg (fun g => (Guard.leave g t mode).Free) same).mpr (inside mode heq)
            · exact free.leave _ _
          · rcases now.1 s lock with same | ⟨-, free⟩
            · exact (congrArg Guard.Free same).mpr (outside h)
            · exact free
      | enter asked mode next =>
          have idle : held = none := now.1
          subst idle
          exact frees_receive .request (out rfl) now
      | leave asked mode next =>
          obtain ⟨rfl, now⟩ := now
          refine ⟨none, now, frees_none.mpr ?_⟩
          by_cases same : asked = lock
          · subst same
            have free := inside mode rfl
            rcases guard_setGuard_self s asked ((s.guard asked).leave t mode) with
              heq | ⟨heq, idle⟩
            · exact (congrArg Guard.Free heq).mpr free
            · exact (congrArg Guard.Free heq).mpr idle
          · have free := outside fun mode' heq => by
              cases heq
              exact same rfl
            exact (congrArg Guard.Free (guard_setGuard_of_ne same)).mpr free
      | call request next =>
          obtain ⟨rfl, now⟩ := now
          exact ⟨none, now, inside, outside⟩

theorem Among.frees (h : Among env task s task' s') (mannerly : Mannerly env)
    (disciplined : task.phase.program.Disciplined LeavesGuards quiet none)
    (free : (s.guard lock).Free) :
    ∃ held, task'.phase.program.Disciplined LeavesGuards quiet held ∧
      task'.Frees lock held s' := by
  induction h with
  | here => exact ⟨none, disciplined, frees_none.mpr free⟩
  | @others task' s' s'' _ change ih =>
      obtain ⟨held, now, inside, outside⟩ := ih
      obtain ⟨stays, kept⟩ := mannerly _ _ change lock
      refine ⟨held, now, fun mode heq => ?_, fun h => stays (outside h)⟩
      by_cases idle : (s'.guard lock).Free
      · exact (stays idle).leave _ _
      · rw [kept idle]
        exact inside mode heq
  | own _ ih =>
      obtain ⟨held, now, frees⟩ := ih
      exact frees_advance now frees

/-- A guard that was free at the start of a call is free at its end. -/
theorem Among.free {t : ThreadId} {call : κ} {p : Action Value}
    (h : Among env (Task.start t call p) s task s') (mannerly : Mannerly env)
    (disciplined : p.Disciplined LeavesGuards quiet none) {r : Except Fault Value}
    (hr : task.outcome? = some r) (free : (s.guard lock).Free) : (s'.guard lock).Free := by
  obtain ⟨held, now, -, outside⟩ := h.frees mannerly disciplined free
  refine outside fun mode heq => ?_
  obtain ⟨t, call, phase, progress⟩ := task
  cases phase with
  | waiting => cases hr
  | running p =>
      cases p with
      | pure v => cases (show held = none from now).symm.trans heq
      | fail fault => cases (show held = none from now).symm.trans heq
      | act | enter | leave | call => cases hr

end Task

/-! ## The guards of a store -/

namespace Store

/-- The guard is there. -/
def Has (s : Store) : LockId → Prop
  | .list l => l.index < s.lists.size
  | .free id => id.index < s.guards.size

instance (s : Store) : DecidablePred s.Has
  | .list l => inferInstanceAs (Decidable (l.index < s.lists.size))
  | .free id => inferInstanceAs (Decidable (id.index < s.guards.size))

variable {s : Store} {lock other : LockId} {g g' : Guard} {t : ThreadId} {mode : Mode}

@[simp] theorem has_setGuard : (s.setGuard lock g).Has other ↔ s.Has other := by
  cases other with
  | list l => simp [Has]
  | free id => cases lock <;> simp [Has, setGuard, modifyList]

theorem guard_setGuard_of_has (h : s.Has lock) : (s.setGuard lock g).guard lock = g := by
  cases lock with
  | list l => rw [guard_setGuard, if_pos ⟨rfl, h⟩]
  | free id =>
      have := Table.get_modify s.guards id.index id.index fun _ => g
      rwa [if_pos ⟨rfl, h⟩] at this

theorem setGuard_self (s : Store) (lock : LockId) : s.setGuard lock (s.guard lock) = s := by
  cases lock with
  | list l => exact modifyList_eq_self rfl
  | free id => rw [setGuard, Table.modify_eq_self _ _ rfl]

theorem setGuard_setGuard (s : Store) (lock : LockId) (g g' : Guard) :
    (s.setGuard lock g).setGuard lock g' = s.setGuard lock g' := by
  cases lock with
  | list l => exact modifyList_modifyList ..
  | free id =>
      simp only [setGuard, Table.modify_modify]
      rfl

theorem setGuard_of_not_has (h : ¬ s.Has lock) : s.setGuard lock g = s := by
  have unknown {α : Type} (entries : Table α) (i : Nat) (f : α → α) (hi : ¬ i < entries.size) :
      entries.modify i f = entries := by
    obtain ⟨entries⟩ := entries
    simp only [Table.modify, Table.mk.injEq]
    refine Array.ext (by simp) fun j hj hj' => ?_
    rw [Array.getElem_modify, if_neg]
    rintro rfl
    exact hi hj'
  cases lock with
  | list l => rw [setGuard, modifyList, unknown _ _ _ h]
  | free id => rw [setGuard, unknown _ _ _ h]

theorem setGuard_leave (h : g.leave t mode = s.guard lock) :
    (s.setGuard lock g).setGuard lock (((s.setGuard lock g).guard lock).leave t mode) = s := by
  by_cases has : s.Has lock
  · rw [guard_setGuard_of_has has, setGuard_setGuard, h, setGuard_self]
  · rw [setGuard_of_not_has has, setGuard_of_not_has has]

end Store

end NinjaFile
