import NinjaFile.Proofs.Lock.Usage

/-!
# Guards that are accounted for

A guard says who writes and how often each thread reads.  As long as all this is borne out
by the calls that are inside, nobody is refused who is not inside as well.
-/

namespace NinjaFile

open Lock

namespace Lock

theorem held_addReader (lock : Lock) (t u : ThreadId) :
    { lock with readers := addReader t lock.readers }.held u =
      lock.held u + (if u = t then 1 else 0) := by
  simp only [held, lookup_addReader]
  by_cases hu : u = t
  · subst hu
    simp only [if_true]
    cases lock.readers.lookup u <;> rfl
  · simp [hu]

theorem held_dropReader (lock : Lock) (t u : ThreadId) (keys : (lock.readers.map Prod.fst).Nodup) :
    { lock with readers := dropReader t lock.readers }.held u ≤
      lock.held u - (if u = t then 1 else 0) := by
  simp only [held, lookup_dropReader t u keys]
  by_cases hu : u = t
  · subst hu
    simp only [if_true]
    cases lock.readers.lookup u with
    | none => simp
    | some n =>
        simp only [Option.bind_some]
        split <;> rename_i h <;> split at h <;> simp_all
  · simp [hu]

end Lock

/-- Writers and readers of a guard are among those that are given. -/
def Guard.Vouched (writes : ThreadId → Prop) (reads : ThreadId → Nat) : Guard → Prop
  | .cooperative writing => writing = true → ∃ t, writes t
  | .locking lock => (∀ t, lock.writer = some t → writes t) ∧ (∀ t, lock.held t ≤ reads t) ∧
      (lock.readers.map Prod.fst).Nodup

namespace Entry

/-- The guard after an attempt to enter. -/
def guard : Entry Guard → Guard
  | .entered g | .refused _ g | .waits g => g

end Entry

namespace Guard

variable {g g' : Guard} {t : ThreadId} {mode : Mode} {writes writes' : ThreadId → Prop}
  {reads reads' : ThreadId → Nat}

/-! ## Entering -/

/-- A way to ask for a guard: for the first time, or again after waiting. -/
inductive Asks (g : Guard) (t : ThreadId) (mode : Mode) : Entry Guard → Prop where
  | request : Asks g t mode (g.request t mode)
  | recheck : Asks g t mode (g.recheck t mode)

theorem kind_asks {entry : Entry Guard} (h : g.Asks t mode entry) :
    entry.guard.isLocking = g.isLocking ∧ entry.guard.isBlocking = g.isBlocking := by
  have rechecked (lock : Lock) : ((lock.recheck t mode).map Guard.locking).guard.isLocking = true ∧
      ((lock.recheck t mode).map Guard.locking).guard.isBlocking = lock.blocking := by
    cases mode <;> simp only [Lock.recheck] <;> split <;> first
      | exact ⟨rfl, rfl⟩
      | (split <;> exact ⟨rfl, rfl⟩)
  cases g with
  | cooperative writing =>
      cases h <;> cases writing <;> cases mode <;> exact ⟨rfl, rfl⟩
  | locking lock =>
      cases h with
      | recheck => exact rechecked lock
      | request =>
          change ((lock.request t mode).map Guard.locking).guard.isLocking = true ∧
            ((lock.request t mode).map Guard.locking).guard.isBlocking = lock.blocking
          cases mode <;> simp only [Lock.request] <;> split <;> first
            | exact ⟨rfl, rfl⟩
            | exact rechecked lock

theorem kind_leave (g : Guard) (t : ThreadId) (mode : Mode) :
    (g.leave t mode).isLocking = g.isLocking ∧ (g.leave t mode).isBlocking = g.isBlocking := by
  cases g <;> cases mode <;> exact ⟨rfl, rfl⟩

/-- Nobody is refused who is not inside, where nobody writes who would not be waited for. -/
theorem not_refused (h : g.Vouched writes reads) (outside : ¬ writes t)
    (closed : mode = .write → reads t = 0)
    (waits : g.isLocking = false ∨ mode = .write ∧ g.isBlocking = false → ∀ u, ¬ writes u)
    {entry : Entry Guard} (asks : g.Asks t mode entry) (fault : BorrowFault) :
    entry ≠ .refused fault g' := by
  cases g with
  | cooperative writing =>
      have idle : writing = false := by
        cases writing with
        | false => rfl
        | true =>
            obtain ⟨u, hu⟩ := h rfl
            exact absurd hu (waits (.inl rfl) u)
      subst idle
      cases asks <;> cases mode <;> rintro ⟨⟩
  | locking lock =>
      obtain ⟨writer, held, -⟩ := h
      have free : lock.writer ≠ some t := fun heq => outside (writer t heq)
      have rechecked : (lock.recheck t mode).map Guard.locking ≠ .refused fault g' := by
        cases mode with
        | read =>
            simp only [Lock.recheck]
            split <;> rintro ⟨⟩
        | write =>
            simp only [Lock.recheck]
            split
            · next hw =>
                simp only [Bool.and_eq_true, Bool.not_eq_true'] at hw
                obtain ⟨u, hu⟩ := Option.isSome_iff_exists.mp hw.1
                exact absurd (writer u hu) (waits (.inr ⟨rfl, hw.2⟩) u)
            · split <;> rintro ⟨⟩
      cases asks with
      | recheck => exact rechecked
      | request =>
          change (lock.request t mode).map Guard.locking ≠ .refused fault g'
          cases mode with
          | read =>
              simp only [Lock.request, if_neg free]
              exact rechecked
          | write =>
              have idle : ¬ (lock.writer = some t ∨ 0 < lock.held t) := by
                rintro (hw | hr)
                · exact free hw
                · exact absurd (held t) (by rw [closed rfl]; exact Nat.not_le.mpr hr)
              simp only [Lock.request, if_neg idle]
              exact rechecked

private theorem locking_entered {lock : Lock} (asks : (locking lock).Asks t mode (.entered g')) :
    ∃ lock', g' = .locking lock' ∧
      (mode = .read ∧ lock'.writer = lock.writer ∧ lock'.readers = addReader t lock.readers ∨
        mode = .write ∧ lock'.writer = some t ∧ lock'.readers = lock.readers) := by
  have rechecked (h : (lock.recheck t mode).map Guard.locking = .entered g') :
      ∃ lock', g' = .locking lock' ∧
        (mode = .read ∧ lock'.writer = lock.writer ∧ lock'.readers = addReader t lock.readers ∨
          mode = .write ∧ lock'.writer = some t ∧ lock'.readers = lock.readers) := by
    cases mode with
    | read =>
        simp only [Lock.recheck] at h
        split at h <;> cases h
        exact ⟨_, rfl, .inl ⟨rfl, rfl, rfl⟩⟩
    | write =>
        simp only [Lock.recheck] at h
        split at h
        · cases h
        · split at h <;> cases h
          exact ⟨_, rfl, .inr ⟨rfl, rfl, rfl⟩⟩
  generalize hentry : Entry.entered g' = entry at asks
  cases asks with
  | recheck => exact rechecked hentry.symm
  | request =>
      have h : (lock.request t mode).map Guard.locking = .entered g' := hentry.symm
      cases mode <;> simp only [Lock.request] at h <;> split at h
      · cases h
      · exact rechecked h
      · cases h
      · exact rechecked h

private theorem asks_waits (asks : g.Asks t mode (.waits g')) :
    ∃ lock lock', g = .locking lock ∧ g' = .locking lock' ∧ lock'.writer = lock.writer ∧
      lock'.readers = lock.readers := by
  generalize hentry : Entry.waits g' = entry at asks
  cases g with
  | cooperative writing => cases asks <;> cases writing <;> cases mode <;> cases hentry
  | locking lock =>
      have rechecked (h : (lock.recheck t mode).map Guard.locking = .waits g') :
          ∃ lock', g' = .locking lock' ∧ lock'.writer = lock.writer ∧
            lock'.readers = lock.readers := by
        cases mode <;> simp only [Lock.recheck] at h <;> split at h <;> first
          | (cases h; exact ⟨_, rfl, rfl, rfl⟩)
          | (split at h <;> cases h; exact ⟨_, rfl, rfl, rfl⟩)
          | cases h
      suffices ∃ lock', g' = .locking lock' ∧ lock'.writer = lock.writer ∧
          lock'.readers = lock.readers by
        obtain ⟨lock', heq, h⟩ := this
        exact ⟨lock, lock', rfl, heq, h⟩
      cases asks with
      | recheck => exact rechecked hentry.symm
      | request =>
          have h : (lock.request t mode).map Guard.locking = .waits g' := hentry.symm
          cases mode <;> simp only [Lock.request] at h <;> split at h
          · cases h
          · exact rechecked h
          · cases h
          · exact rechecked h

theorem Vouched.entered (h : g.Vouched writes reads) (asks : g.Asks t mode (.entered g'))
    (more : ∀ u, writes u → writes' u) (own : mode = .write → writes' t)
    (count : ∀ u, reads u + (if mode = .read ∧ u = t then 1 else 0) ≤ reads' u) :
    g'.Vouched writes' reads' := by
  cases g with
  | cooperative writing =>
      generalize hentry : Entry.entered g' = entry at asks
      have given : g'.Vouched writes' reads' := by
        cases asks <;> cases writing <;> cases mode <;> cases hentry <;>
          first
            | exact fun _ => ⟨t, own rfl⟩
            | exact nofun
      exact given
  | locking lock =>
      obtain ⟨writer, held, keys⟩ := h
      obtain ⟨lock', rfl, ⟨rfl, hw, hr⟩ | ⟨rfl, hw, hr⟩⟩ := locking_entered asks
      · refine ⟨fun u hu => more u (writer u (hw ▸ hu)), fun u => ?_, ?_⟩
        · have added := held_addReader lock t u
          have := held u
          have := count u
          simp only [true_and] at this
          rw [Lock.held, hr]
          change { lock with readers := addReader t lock.readers }.held u ≤ reads' u
          omega
        · rw [hr]
          exact nodup_keys_addReader t keys
      · refine ⟨fun u hu => ?_, fun u => ?_, hr ▸ keys⟩
        · rw [hw] at hu
          cases hu
          exact own rfl
        · have := held u
          have := count u
          rw [Lock.held, hr]
          change lock.held u ≤ reads' u
          omega

theorem Vouched.waits (h : g.Vouched writes reads) (asks : g.Asks t mode (.waits g')) :
    g'.Vouched writes reads := by
  obtain ⟨lock, lock', rfl, rfl, hw, hr⟩ := asks_waits asks
  obtain ⟨writer, held, keys⟩ := h
  refine ⟨fun u hu => writer u (hw ▸ hu), fun u => ?_, hr ▸ keys⟩
  rw [Lock.held, hr]
  exact held u

theorem Vouched.leave (h : g.Vouched writes reads) (t : ThreadId) (mode : Mode)
    (more : mode = .read → ∀ u, writes u → writes' u)
    (count : ∀ u, reads u ≤ reads' u + (if mode = .read ∧ u = t then 1 else 0)) :
    (g.leave t mode).Vouched writes' reads' := by
  cases g with
  | cooperative writing =>
      cases mode with
      | write => exact nofun
      | read =>
          intro hw
          obtain ⟨u, hu⟩ := h hw
          exact ⟨u, more rfl u hu⟩
  | locking lock =>
      obtain ⟨writer, held, keys⟩ := h
      cases mode with
      | write =>
          have below (u : ThreadId) : lock.held u ≤ reads' u :=
            Nat.le_trans (held u) (by simpa using count u)
          exact ⟨nofun, below, keys⟩
      | read =>
          refine ⟨fun u hu => more rfl u (writer u hu), fun u => ?_,
            keys.sublist (keys_dropReader_sublist t _)⟩
          have dropped := held_dropReader lock t u keys
          have := held u
          have := count u
          change { lock with readers := dropReader t lock.readers }.held u ≤ reads' u
          simp only [true_and] at this
          omega

end Guard

end NinjaFile
