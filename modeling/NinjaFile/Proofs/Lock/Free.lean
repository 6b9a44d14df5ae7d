import NinjaFile.Guard

/-!
# Guards that nobody is in

A guard that nobody is in, and for which nobody waits, admits everyone, and it is found as
before when it has been left.
-/

namespace NinjaFile.Guard

/-- Nobody is in the guard or waits for it. -/
def Free : Guard → Prop
  | .cooperative writing => writing = false
  | .locking lock => ∃ blocking, lock = .free blocking

theorem free_ofOwnership (ownership : Ownership) (blocking : Bool) :
    (ofOwnership ownership blocking).Free := by
  cases ownership with
  | single => rfl
  | shared => exact ⟨blocking, rfl⟩

/-- A free guard admits everyone, and is as it was after it has been left. -/
theorem Free.request {g : Guard} (h : g.Free) (t : ThreadId) (mode : Mode) :
    ∃ g', g.request t mode = .entered g' ∧ g'.leave t mode = g := by
  cases g with
  | cooperative writing =>
      obtain rfl : writing = false := h
      cases mode <;> exact ⟨_, rfl, rfl⟩
  | locking lock =>
      obtain ⟨blocking, rfl⟩ := h
      cases mode with
      | write => exact ⟨_, rfl, rfl⟩
      | read =>
          refine ⟨_, rfl, ?_⟩
          simp [leave, Lock.leave, Lock.free, Lock.withoutWaiter, Lock.addReader,
            Lock.dropReader, Lock.notifyAll]

end NinjaFile.Guard

/-!
## Guards that one thread is in

As long as no other thread is about, a guard is free, or held for writing once, or held for
reading some number of times.  An attempt to enter it is then answered at once: it is
refused and changes nothing, or it succeeds and leaving takes the guard back to what it was.
-/

namespace NinjaFile.Guard

/-- Nobody but the thread is in the guard, and nobody waits for it. -/
inductive Within (t : ThreadId) : Guard → Prop where
  | cooperative (writing : Bool) : Within t (.cooperative writing)
  | free (blocking : Bool) : Within t (.locking ⟨blocking, none, [], []⟩)
  | writing (blocking : Bool) : Within t (.locking ⟨blocking, some t, [], []⟩)
  | reading (blocking : Bool) (n : Nat) :
      Within t (.locking ⟨blocking, none, [(t, n + 1)], []⟩)

/-- Every attempt of the thread is refused. -/
def Bars (t : ThreadId) (g : Guard) : Prop :=
  ∀ mode, ∃ fault, g.request t mode = .refused fault g

variable {g : Guard} {t : ThreadId}

theorem Free.within (h : g.Free) (t : ThreadId) : g.Within t := by
  cases g with
  | cooperative writing => exact .cooperative writing
  | locking lock =>
      obtain ⟨blocking, rfl⟩ := h
      exact .free blocking

theorem bars_cooperative (t : ThreadId) : (cooperative true).Bars t := by
  rintro (_ | _) <;> exact ⟨_, rfl⟩

theorem bars_writing (t : ThreadId) (blocking : Bool) :
    (locking ⟨blocking, some t, [], []⟩).Bars t := by
  intro mode
  refine ⟨.heldByThread mode, ?_⟩
  cases mode <;> simp [request, Lock.request, Entry.map]

/-- How an attempt to enter can end: it is refused, or the thread is in until it leaves,
and if it is in for writing then it gets in no second time. -/
theorem Within.request (h : g.Within t) (mode : Mode) :
    (∃ g', g.request t mode = .entered g' ∧ g'.Within t ∧ g'.leave t mode = g ∧
      (mode = .write → g'.Bars t)) ∨
    ∃ fault, g.request t mode = .refused fault g := by
  cases h with
  | cooperative writing =>
      cases writing with
      | true => exact .inr (bars_cooperative t mode)
      | false =>
          left
          cases mode with
          | read => exact ⟨_, rfl, .cooperative _, rfl, nofun⟩
          | write => exact ⟨_, rfl, .cooperative _, rfl, fun _ => bars_cooperative t⟩
  | free blocking =>
      left
      cases mode with
      | read =>
          exact ⟨_, rfl, .reading blocking 0, by simp [leave, Lock.leave, Lock.dropReader,
            Lock.notifyAll, Lock.addReader, Lock.withoutWaiter], nofun⟩
      | write => exact ⟨_, rfl, .writing blocking, rfl, fun _ => bars_writing t blocking⟩
  | writing blocking => exact .inr (bars_writing t blocking mode)
  | reading blocking n =>
      cases mode with
      | write => exact .inr ⟨.heldByThread .write, by simp [Guard.request, Lock.request, Lock.held, Entry.map]⟩
      | read =>
          refine .inl ⟨_, ?_, .reading blocking (n + 1), ?_, nofun⟩
          · simp [Guard.request, Lock.request, Lock.recheck, Lock.addReader, Lock.withoutWaiter,
              Entry.map]
          · simp [leave, Lock.leave, Lock.dropReader, Lock.notifyAll]

end NinjaFile.Guard
