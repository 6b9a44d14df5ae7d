import NinjaFile.Proofs.Program.Releasing

/-!
# Waiting for guards

Whoever waits for a guard waits for somebody who is inside.  When the last one has left,
everyone who waits has been notified, and will be let in.
-/

namespace NinjaFile

open Lock

namespace Lock

variable {lock : Lock} {t u : ThreadId} {mode : Mode} {entry : Entry Guard}

/-- What a lock answers to a thread that asks, and what it keeps of that. -/
inductive Answers (lock : Lock) (t : ThreadId) (mode : Mode) : Entry Guard → Prop where
  | held (fault : BorrowFault) : Answers lock t mode (.refused fault (.locking lock))
  | refused (fault : BorrowFault) :
      Answers lock t mode (.refused fault (.locking (lock.withoutWaiter t)))
  | waits (busy : lock.writer.isSome ∨ lock.readers ≠ []) :
      Answers lock t mode (.waits (.locking (lock.wait t mode)))
  | writes (h : mode = .write) :
      Answers lock t mode (.entered (.locking { lock.withoutWaiter t with writer := some t }))
  | reads (h : mode = .read) :
      Answers lock t mode
        (.entered (.locking { lock.withoutWaiter t with readers := addReader t lock.readers }))

private theorem answers_recheck (lock : Lock) (t : ThreadId) (mode : Mode) :
    lock.Answers t mode ((lock.recheck t mode).map .locking) := by
  cases mode with
  | read =>
      simp only [recheck]
      split
      · next busy => exact .waits (.inl busy)
      · exact .reads rfl
  | write =>
      simp only [recheck]
      split
      · exact .refused _
      · split
        · next busy =>
            refine .waits ?_
            simpa [List.isEmpty_iff] using busy
        · exact .writes rfl

theorem answers_of_asks (asks : (Guard.locking lock).Asks t mode entry) :
    lock.Answers t mode entry := by
  cases asks with
  | recheck => exact answers_recheck lock t mode
  | request =>
      change lock.Answers t mode ((lock.request t mode).map .locking)
      cases mode <;> simp only [request] <;> split <;> first
        | exact .held _
        | exact answers_recheck lock t _

/-- An entry stands for reads that are open, and somebody waits in vain only while somebody
is inside. -/
structure Settled (lock : Lock) : Prop where
  counted : ∀ e ∈ lock.readers, 0 < e.2
  busy : ∀ w ∈ lock.waiting, w.notified = false → lock.writer.isSome ∨ lock.readers ≠ []

private theorem counted_addReader {readers : List (ThreadId × Nat)} (t : ThreadId)
    (h : ∀ e ∈ readers, 0 < e.2) : ∀ e ∈ addReader t readers, 0 < e.2 := by
  induction readers with
  | nil =>
      intro e he
      cases List.mem_singleton.mp he
      exact Nat.one_pos
  | cons head rest ih =>
      obtain ⟨u, n⟩ := head
      obtain ⟨first, others⟩ := List.forall_mem_cons.mp h
      rw [addReader]
      split
      · exact List.forall_mem_cons.mpr ⟨Nat.succ_pos n, others⟩
      · exact List.forall_mem_cons.mpr ⟨first, ih others⟩

private theorem counted_dropReader {readers : List (ThreadId × Nat)} (t : ThreadId)
    (h : ∀ e ∈ readers, 0 < e.2) : ∀ e ∈ dropReader t readers, 0 < e.2 := by
  induction readers with
  | nil => exact nofun
  | cons head rest ih =>
      obtain ⟨u, n⟩ := head
      obtain ⟨first, others⟩ := List.forall_mem_cons.mp h
      rw [dropReader]
      split
      · split
        · exact others
        · exact List.forall_mem_cons.mpr ⟨Nat.sub_pos_of_lt (by omega), others⟩
      · exact List.forall_mem_cons.mpr ⟨first, ih others⟩

private theorem addReader_ne_nil (t : ThreadId) (readers : List (ThreadId × Nat)) :
    addReader t readers ≠ [] := by
  cases readers with
  | nil => exact List.cons_ne_nil _ _
  | cons head rest =>
      rw [addReader]
      split <;> exact List.cons_ne_nil _ _

end Lock

namespace Guard

variable {g g' : Guard} {t u : ThreadId} {mode : Mode} {entry : Entry Guard}

/-! ## Guards that are settled -/

def Settled : Guard → Prop
  | .cooperative _ => True
  | .locking lock => lock.Settled

theorem Free.settled (h : g.Free) : g.Settled := by
  cases g with
  | cooperative writing => trivial
  | locking lock =>
      obtain ⟨blocking, rfl⟩ := h
      exact ⟨nofun, nofun⟩

theorem Settled.asks (h : g.Settled) (asks : g.Asks t mode entry) : entry.guard.Settled := by
  cases g with
  | cooperative writing => cases asks <;> cases writing <;> cases mode <;> trivial
  | locking lock =>
      obtain ⟨counted, busy⟩ := h
      have fewer : ∀ w ∈ (lock.withoutWaiter t).waiting, w ∈ lock.waiting := fun w hw =>
        List.mem_of_mem_filter hw
      cases answers_of_asks asks with
      | held => exact ⟨counted, busy⟩
      | refused => exact ⟨counted, fun w hw => busy w (fewer w hw)⟩
      | waits now => exact ⟨counted, fun _ _ _ => now⟩
      | writes => exact ⟨counted, fun _ _ _ => .inl rfl⟩
      | reads => exact ⟨counted_addReader t counted, fun _ _ _ => .inr (addReader_ne_nil t _)⟩

theorem Settled.leave (h : g.Settled) (t : ThreadId) (mode : Mode) : (g.leave t mode).Settled := by
  cases g with
  | cooperative writing => cases mode <;> trivial
  | locking lock =>
      -- Everyone who waits has been notified.
      have notified (lock : Lock) : ∀ w ∈ lock.notifyAll.waiting, w.notified = true := fun w hw => by
        obtain ⟨_, -, rfl⟩ := List.mem_map.mp hw
        rfl
      have busy (lock : Lock) {P : Prop} (w : Waiter) (hw : w ∈ lock.notifyAll.waiting)
          (not : w.notified = false) : P := by
        rw [notified lock w hw] at not
        cases not
      cases mode with
      | write => exact ⟨h.counted, busy _⟩
      | read => exact ⟨counted_dropReader t h.counted, busy _⟩

/-! ## Threads that wait -/

/-- A thread waits for the guard. -/
def AwaitedBy (t : ThreadId) : Guard → Prop
  | .cooperative _ => False
  | .locking lock => ∃ w ∈ lock.waiting, w.thread = t

theorem awaitedBy_of_waits (asks : g.Asks t mode (.waits g')) : g'.AwaitedBy t := by
  cases g with
  | cooperative writing =>
      generalize hentry : Entry.waits g' = entry at asks
      cases asks <;> cases writing <;> cases mode <;> cases hentry
  | locking lock =>
      cases answers_of_asks asks with
      | waits => exact ⟨_, List.mem_append_right _ (List.mem_singleton_self _), rfl⟩

theorem AwaitedBy.asks (h : g.AwaitedBy u) (other : u ≠ t) (asks : g.Asks t mode entry) :
    entry.guard.AwaitedBy u := by
  cases g with
  | cooperative writing => exact h.elim
  | locking lock =>
      obtain ⟨w, hw, rfl⟩ := h
      have kept : w ∈ (lock.withoutWaiter t).waiting :=
        List.mem_filter.mpr ⟨hw, by simpa using other⟩
      cases answers_of_asks asks with
      | held => exact ⟨w, hw, rfl⟩
      | refused | writes | reads => exact ⟨w, kept, rfl⟩
      | waits => exact ⟨w, List.mem_append_left _ kept, rfl⟩

theorem AwaitedBy.leave (h : g.AwaitedBy u) (t : ThreadId) (mode : Mode) :
    (g.leave t mode).AwaitedBy u := by
  cases g with
  | cooperative writing => exact h.elim
  | locking lock =>
      obtain ⟨w, hw, rfl⟩ := h
      cases mode <;> exact ⟨_, List.mem_map_of_mem hw, rfl⟩

/-! ## Guards that nobody is in -/

/-- Nobody is inside, but there may be threads that wait. -/
def Idle : Guard → Prop
  | .cooperative writing => writing = false
  | .locking lock => lock.writer = none ∧ lock.readers = []

theorem Idle.asks (h : g.Idle) (asks : g.Asks t mode entry) : ∃ g', entry = .entered g' := by
  cases g with
  | cooperative writing =>
      obtain rfl : writing = false := h
      cases asks <;> cases mode <;> exact ⟨_, rfl⟩
  | locking lock =>
      obtain ⟨blocking, writer, readers, waiting⟩ := lock
      obtain ⟨rfl, rfl⟩ : writer = none ∧ readers = [] := h
      cases asks <;> cases mode <;> exact ⟨_, rfl⟩

theorem Idle.isNotified (h : g.Idle) (settled : g.Settled) (awaited : g.AwaitedBy t) :
    g.isNotified t = true := by
  cases g with
  | cooperative writing => exact awaited.elim
  | locking lock =>
      obtain ⟨w, hw, rfl⟩ := awaited
      obtain ⟨writer, readers⟩ := h
      have notified : w.notified = true := by
        by_contra not
        rcases settled.busy w hw (by simpa using not) with busy | busy
        · rw [writer] at busy
          cases busy
        · exact busy readers
      exact List.any_eq_true.mpr ⟨w, hw, by simp [notified]⟩

variable {writes writes' : ThreadId → Prop} {reads reads' : ThreadId → Nat}

theorem Vouched.refused (h : g.Vouched writes reads) {fault : BorrowFault}
    (asks : g.Asks t mode (.refused fault g')) : g'.Vouched writes reads := by
  cases g with
  | cooperative writing =>
      generalize hentry : Entry.refused fault g' = entry at asks
      cases asks <;> cases writing <;> cases mode <;> cases hentry <;> exact h
  | locking lock => cases answers_of_asks asks <;> exact h

/-- Nobody is in a guard that nobody says to be in. -/
theorem Vouched.idle (h : g.Vouched writes reads) (settled : g.Settled) (none : ∀ t, ¬ writes t)
    (zero : ∀ t, reads t = 0) : g.Idle := by
  cases g with
  | cooperative writing =>
      cases writing with
      | false => rfl
      | true =>
          obtain ⟨t, ht⟩ := h rfl
          exact absurd ht (none t)
  | locking lock =>
      obtain ⟨writer, held, -⟩ := h
      refine ⟨Option.eq_none_iff_forall_ne_some.mpr fun t ht => none t (writer t ht), ?_⟩
      rcases hreaders : lock.readers with _ | ⟨⟨t, n⟩, rest⟩
      · rfl
      · have open_ : 0 < n := settled.counted (t, n) (by simp [hreaders])
        have count := held t
        rw [zero t, Lock.held, hreaders, List.lookup_cons_self] at count
        exact absurd open_ (Nat.not_lt.mpr count)

end Guard

end NinjaFile
