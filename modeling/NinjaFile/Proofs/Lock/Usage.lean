import Mathlib.Data.List.Count
import NinjaFile.Guard

/-!
# Use of a lock

A lock is asked for, waited for and left by any number of threads in any order.  Beside
the lock, a `Usage` keeps the contexts that are open: what was entered and not yet left.
The lock says exactly which contexts these are, a writer is alone in it, and a refusal
leaves everything as it was.
-/

namespace NinjaFile.Lock

/-! ## Readers by thread -/

private theorem lookup_entry (u v : ThreadId) (n : Nat) (rest : List (ThreadId × Nat)) :
    ((v, n) :: rest).lookup u = if u = v then some n else rest.lookup u := by
  rw [List.lookup_cons]
  by_cases h : u = v
  · simp [h]
  · simp [h, beq_false_of_ne h]

theorem lookup_addReader (t u : ThreadId) (readers : List (ThreadId × Nat)) :
    (addReader t readers).lookup u =
      if u = t then some ((readers.lookup t).getD 0 + 1) else readers.lookup u := by
  induction readers with
  | nil => simp [addReader]
  | cons head rest ih =>
      obtain ⟨v, n⟩ := head
      rw [addReader]
      by_cases hv : v = t
      · subst hv
        by_cases hu : u = v <;> simp [lookup_entry, hu]
      · rw [if_neg hv, lookup_entry, lookup_entry, lookup_entry, ih, if_neg (Ne.symm hv)]
        by_cases hu : u = v
        · subst hu
          simp [hv]
        · simp [hu]

theorem mem_keys_addReader (t u : ThreadId) (readers : List (ThreadId × Nat)) :
    u ∈ (addReader t readers).map Prod.fst ↔ u = t ∨ u ∈ readers.map Prod.fst := by
  induction readers with
  | nil => simp [addReader]
  | cons head rest ih =>
      obtain ⟨v, n⟩ := head
      rw [addReader]
      split
      · next h =>
          subst h
          simp
      · simp only [List.map_cons, List.mem_cons, ih]
        tauto

theorem nodup_keys_addReader (t : ThreadId) {readers : List (ThreadId × Nat)}
    (h : (readers.map Prod.fst).Nodup) : ((addReader t readers).map Prod.fst).Nodup := by
  induction readers with
  | nil => simp [addReader]
  | cons head rest ih =>
      obtain ⟨v, n⟩ := head
      obtain ⟨hv, hrest⟩ := List.nodup_cons.mp h
      rw [addReader]
      split
      · exact h
      · next hne =>
          refine List.nodup_cons.mpr ⟨?_, ih hrest⟩
          rw [mem_keys_addReader]
          exact not_or.mpr ⟨hne, hv⟩

theorem keys_dropReader_sublist (t : ThreadId) (readers : List (ThreadId × Nat)) :
    ((dropReader t readers).map Prod.fst).Sublist (readers.map Prod.fst) := by
  induction readers with
  | nil => exact .slnil
  | cons head rest ih =>
      obtain ⟨v, n⟩ := head
      rw [dropReader]
      split
      · split
        · exact List.sublist_cons_self ..
        · exact .refl _
      · exact ih.cons_cons v

theorem lookup_eq_none_of_not_mem {t : ThreadId} {readers : List (ThreadId × Nat)}
    (h : t ∉ readers.map Prod.fst) : readers.lookup t = none := by
  induction readers with
  | nil => rfl
  | cons head rest ih =>
      simp only [List.map_cons, List.mem_cons, not_or] at h
      rw [lookup_entry, if_neg h.1]
      exact ih h.2

theorem lookup_dropReader (t u : ThreadId) {readers : List (ThreadId × Nat)}
    (h : (readers.map Prod.fst).Nodup) :
    (dropReader t readers).lookup u =
      if u = t then (readers.lookup t).bind fun n => if n ≤ 1 then none else some (n - 1)
      else readers.lookup u := by
  induction readers with
  | nil => simp [dropReader]
  | cons head rest ih =>
      obtain ⟨v, n⟩ := head
      obtain ⟨hv, hrest⟩ := List.nodup_cons.mp h
      have gone : rest.lookup v = none := lookup_eq_none_of_not_mem hv
      rw [dropReader]
      by_cases hvt : v = t
      · subst hvt
        by_cases hn : n ≤ 1 <;> by_cases hu : u = v <;> simp [lookup_entry, hn, hu, gone]
      · rw [if_neg hvt, lookup_entry, lookup_entry, lookup_entry, ih hrest,
          if_neg (Ne.symm hvt)]
        by_cases hu : u = v
        · subst hu
          simp [hvt]
        · simp [hu]

/-! ## Open contexts -/

/-- What a thread has entered and not yet left. -/
structure Context where
  thread : ThreadId
  mode : Mode
deriving DecidableEq, Repr

/-- A lock and the contexts that are open, the newest first. -/
structure Usage where
  lock : Lock
  contexts : List Context
deriving DecidableEq, Repr

inductive Event where
  /-- A thread that does not wait asks for the lock. -/
  | request (t : ThreadId) (mode : Mode)
  /-- A thread that waits looks at the lock again. -/
  | recheck (t : ThreadId) (mode : Mode)
  /-- A thread leaves a context, however what it did there has ended. -/
  | leave (t : ThreadId) (mode : Mode)
deriving DecidableEq, Repr

namespace Usage

def free (blocking : Bool) : Usage := ⟨.free blocking, []⟩

/-- A context is open from the attempt on that succeeds. -/
def enter (u : Usage) (c : Context) : Entry Lock → Usage
  | .entered lock => ⟨lock, c :: u.contexts⟩
  | .refused _ lock => ⟨lock, u.contexts⟩
  | .waits lock => ⟨lock, u.contexts⟩

def leave (u : Usage) (c : Context) : Usage :=
  ⟨u.lock.leave c.thread c.mode, u.contexts.erase c⟩

def isWaiting (u : Usage) (t : ThreadId) : Bool :=
  u.lock.waiting.any fun w => w.thread = t

def waitsFor (u : Usage) (c : Context) : Bool :=
  u.lock.waiting.any fun w => w.thread = c.thread ∧ w.mode = c.mode

/-- What cannot happen in a state changes nothing. -/
def next (u : Usage) : Event → Usage
  | .request t mode =>
      if u.isWaiting t then u else u.enter ⟨t, mode⟩ (u.lock.request t mode)
  | .recheck t mode =>
      if u.waitsFor ⟨t, mode⟩ then u.enter ⟨t, mode⟩ (u.lock.recheck t mode) else u
  | .leave t mode => if ⟨t, mode⟩ ∈ u.contexts then u.leave ⟨t, mode⟩ else u

def run (u : Usage) (events : List Event) : Usage := events.foldl next u

/-- The lock knows its contexts: the thread of the only write, and the number of reads
of each thread. -/
structure Faithful (u : Usage) : Prop where
  writer_iff : ∀ t, u.lock.writer = some t ↔ ⟨t, .write⟩ ∈ u.contexts
  count_write : ∀ t, u.contexts.count ⟨t, .write⟩ ≤ 1
  alone : ∀ t v, ⟨t, .write⟩ ∈ u.contexts → ⟨v, .read⟩ ∉ u.contexts
  lookup : ∀ t, u.lock.readers.lookup t =
    if ⟨t, .read⟩ ∈ u.contexts then some (u.contexts.count ⟨t, .read⟩) else none
  keys : (u.lock.readers.map Prod.fst).Nodup

theorem faithful_free (blocking : Bool) : (free blocking).Faithful where
  writer_iff t := by simp [free, Lock.free]
  count_write t := by simp [free]
  alone t v h := by simp [free] at h
  lookup t := by simp [free, Lock.free]
  keys := by simp [free, Lock.free]

theorem Faithful.congr {u v : Usage} (h : u.Faithful) (writer : v.lock.writer = u.lock.writer)
    (readers : v.lock.readers = u.lock.readers) (contexts : v.contexts = u.contexts) :
    v.Faithful where
  writer_iff := by rw [writer, contexts]; exact h.writer_iff
  count_write := by rw [contexts]; exact h.count_write
  alone := by rw [contexts]; exact h.alone
  lookup := by rw [readers, contexts]; exact h.lookup
  keys := by rw [readers]; exact h.keys

theorem Faithful.writer_eq_none_iff {u : Usage} (h : u.Faithful) :
    u.lock.writer = none ↔ ∀ t, ⟨t, .write⟩ ∉ u.contexts := by
  constructor
  · intro hnone t hmem
    have := (h.writer_iff t).mpr hmem
    rw [hnone] at this
    contradiction
  · intro hnot
    cases hw : u.lock.writer with
    | none => rfl
    | some t => exact absurd ((h.writer_iff t).mp hw) (hnot t)

theorem Faithful.readers_eq_nil_iff {u : Usage} (h : u.Faithful) :
    u.lock.readers = [] ↔ ∀ t, ⟨t, .read⟩ ∉ u.contexts := by
  constructor
  · intro hnil t hmem
    have := h.lookup t
    rw [hnil, if_pos hmem] at this
    contradiction
  · intro hnot
    cases hr : u.lock.readers with
    | nil => rfl
    | cons head rest =>
        obtain ⟨v, n⟩ := head
        have := h.lookup v
        rw [hr, if_neg (hnot v)] at this
        simp at this

/-! ## Steps -/

theorem faithful_enter_write {u : Usage} (h : u.Faithful) (t : ThreadId) (lock : Lock)
    (idle : u.lock.writer = none) (unread : u.lock.readers = [])
    (writer : lock.writer = some t) (readers : lock.readers = u.lock.readers) :
    (u.enter ⟨t, .write⟩ (.entered lock)).Faithful := by
  have noWrite := h.writer_eq_none_iff.mp idle
  have noRead := h.readers_eq_nil_iff.mp unread
  constructor
  · intro v
    simp only [enter, writer, List.mem_cons, Context.mk.injEq, and_true, Option.some.injEq]
    constructor
    · rintro rfl
      exact .inl rfl
    · rintro (rfl | hv)
      · rfl
      · exact absurd hv (noWrite v)
  · intro v
    have : u.contexts.count ⟨v, .write⟩ = 0 := List.count_eq_zero.mpr (noWrite v)
    simp only [enter, List.count_cons, this]
    split <;> omega
  · intro v w hv
    simp [enter, noRead w]
  · intro v
    simp [enter, readers, unread, noRead v]
  · simp [enter, readers, unread]

theorem faithful_enter_read {u : Usage} (h : u.Faithful) (t : ThreadId) (lock : Lock)
    (idle : u.lock.writer = none) (writer : lock.writer = u.lock.writer)
    (readers : lock.readers = addReader t u.lock.readers) :
    (u.enter ⟨t, .read⟩ (.entered lock)).Faithful := by
  have noWrite := h.writer_eq_none_iff.mp idle
  constructor
  · intro v
    simp [enter, writer, idle, noWrite v]
  · intro v
    simpa [enter, List.count_cons] using h.count_write v
  · intro v w hv
    simp [enter, noWrite v] at hv
  · intro v
    simp only [enter, readers, lookup_addReader, h.lookup t, h.lookup v, List.mem_cons,
      Context.mk.injEq, and_true, List.count_cons, beq_iff_eq]
    by_cases hvt : v = t
    · subst hvt
      by_cases hmem : (⟨v, .read⟩ : Context) ∈ u.contexts
      · simp [hmem]
      · simp [hmem, List.count_eq_zero.mpr hmem]
    · simp [hvt, Ne.symm hvt]
  · simpa [enter, readers] using nodup_keys_addReader t h.keys

theorem faithful_recheck {u : Usage} (h : u.Faithful) (t : ThreadId) (mode : Mode) :
    (u.enter ⟨t, mode⟩ (u.lock.recheck t mode)).Faithful := by
  cases mode with
  | write =>
      rw [recheck]
      split
      · exact h.congr rfl rfl rfl
      split
      · exact h.congr rfl rfl rfl
      · next free =>
          simp only [Bool.or_eq_true, Option.isSome_iff_ne_none, Bool.not_eq_true',
            List.isEmpty_eq_false_iff, not_or, not_not] at free
          exact faithful_enter_write h t _ free.1 free.2 rfl rfl
  | read =>
      rw [recheck]
      split
      · exact h.congr rfl rfl rfl
      · next free =>
          simp only [Option.isSome_iff_ne_none, ne_eq, not_not] at free
          exact faithful_enter_read h t _ free rfl rfl

theorem faithful_request {u : Usage} (h : u.Faithful) (t : ThreadId) (mode : Mode) :
    (u.enter ⟨t, mode⟩ (u.lock.request t mode)).Faithful := by
  cases mode <;> rw [request] <;> split
  · exact h.congr rfl rfl rfl
  · exact faithful_recheck h t .read
  · exact h.congr rfl rfl rfl
  · exact faithful_recheck h t .write

theorem faithful_leave_write {u : Usage} (h : u.Faithful) (t : ThreadId)
    (opened : ⟨t, .write⟩ ∈ u.contexts) : (u.leave ⟨t, .write⟩).Faithful := by
  have none_left : ∀ v, (⟨v, .write⟩ : Context) ∉ u.contexts.erase ⟨t, .write⟩ := by
    intro v hv
    have hvt : v = t := by
      have hw := (h.writer_iff t).mpr opened
      rw [(h.writer_iff v).mpr (List.mem_of_mem_erase hv)] at hw
      exact Option.some.inj hw
    subst hvt
    have := List.count_pos_iff.mpr hv
    rw [List.count_erase_self] at this
    have := h.count_write v
    omega
  have reads : ∀ v, (⟨v, .read⟩ : Context) ∉ u.contexts := fun v => h.alone t v opened
  constructor
  · intro v
    simpa [leave, Lock.leave, notifyAll] using none_left v
  · intro v
    simp [leave, List.count_eq_zero.mpr (none_left v)]
  · intro v w hv
    exact absurd hv (none_left v)
  · intro v
    have gone : (⟨v, .read⟩ : Context) ∉ u.contexts.erase ⟨t, .write⟩ :=
      fun hv => reads v (List.mem_of_mem_erase hv)
    simpa [leave, Lock.leave, notifyAll, gone, reads v] using h.lookup v
  · exact h.keys

theorem faithful_leave_read {u : Usage} (h : u.Faithful) (t : ThreadId)
    (opened : ⟨t, .read⟩ ∈ u.contexts) : (u.leave ⟨t, .read⟩).Faithful := by
  have writes : ∀ v, (⟨v, .write⟩ : Context) ∉ u.contexts := fun v hv => h.alone v t hv opened
  have idle := h.writer_eq_none_iff.mpr writes
  have writes_left : ∀ v, (⟨v, .write⟩ : Context) ∉ u.contexts.erase ⟨t, .read⟩ :=
    fun v hv => writes v (List.mem_of_mem_erase hv)
  constructor
  · intro v
    simp [leave, Lock.leave, notifyAll, idle, writes_left v]
  · intro v
    simp [leave, List.count_eq_zero.mpr (writes_left v)]
  · intro v w hv
    exact absurd hv (writes_left v)
  · intro v
    simp only [leave, Lock.leave, notifyAll, lookup_dropReader t v h.keys, h.lookup]
    by_cases hvt : v = t
    · subst hvt
      have left : ⟨v, .read⟩ ∈ u.contexts.erase ⟨v, .read⟩ ↔
          1 < u.contexts.count ⟨v, .read⟩ := by
        rw [← List.count_pos_iff, List.count_erase_self]
        omega
      rw [if_pos rfl, if_pos opened, Option.bind_some, List.count_erase_self]
      simp only [left]
      split <;> split <;> first | rfl | omega
    · have other : (⟨v, .read⟩ : Context) ≠ ⟨t, .read⟩ := by simpa using hvt
      simp [hvt, List.mem_erase_of_ne other, List.count_erase_of_ne other]
  · exact h.keys.sublist (keys_dropReader_sublist t _)

theorem faithful_leave {u : Usage} (h : u.Faithful) (c : Context) (opened : c ∈ u.contexts) :
    (u.leave c).Faithful := by
  obtain ⟨t, mode⟩ := c
  cases mode with
  | read => exact faithful_leave_read h t opened
  | write => exact faithful_leave_write h t opened

theorem faithful_next {u : Usage} (h : u.Faithful) (e : Event) : (u.next e).Faithful := by
  cases e with
  | request t mode =>
      rw [next]
      split
      · exact h
      · exact faithful_request h t mode
  | recheck t mode =>
      rw [next]
      split
      · exact faithful_recheck h t mode
      · exact h
  | leave t mode =>
      rw [next]
      split
      · next opened => exact faithful_leave h _ opened
      · exact h

theorem faithful_run {u : Usage} (h : u.Faithful) (events : List Event) :
    (u.run events).Faithful := by
  induction events generalizing u with
  | nil => exact h
  | cons e events ih => exact ih (faithful_next h e)

/-! ## Refusals -/

theorem recheck_refused {lock after : Lock} {t : ThreadId} {mode : Mode} {fault : BorrowFault}
    (h : lock.recheck t mode = .refused fault after) :
    after.writer = lock.writer ∧ after.readers = lock.readers := by
  cases mode with
  | write =>
      rw [recheck] at h
      split at h
      · cases h
        exact ⟨rfl, rfl⟩
      · split at h <;> cases h
  | read =>
      rw [recheck] at h
      split at h <;> cases h

theorem request_refused {lock after : Lock} {t : ThreadId} {mode : Mode} {fault : BorrowFault}
    (h : lock.request t mode = .refused fault after) :
    after.writer = lock.writer ∧ after.readers = lock.readers := by
  cases mode <;> rw [request] at h <;> split at h
  all_goals first
    | exact recheck_refused h
    | cases h
      exact ⟨rfl, rfl⟩

/-! ## All runs -/

/-- The writes that are open. -/
def writes (u : Usage) : List Context := u.contexts.filter fun c => c.mode = .write

theorem Faithful.writes_eq {u : Usage} (h : u.Faithful) :
    u.writes = u.lock.writer.toList.map fun t => ⟨t, .write⟩ := by
  cases hw : u.lock.writer with
  | none =>
      refine List.filter_eq_nil_iff.mpr ?_
      rintro ⟨t, mode⟩ hmem
      cases mode with
      | read => simp
      | write => exact absurd hmem (h.writer_eq_none_iff.mp hw t)
  | some t =>
      have same : u.writes = u.contexts.filter (· == ⟨t, .write⟩) := by
        refine List.filter_congr ?_
        rintro ⟨v, mode⟩ hmem
        cases mode with
        | read => simp
        | write =>
            have := (h.writer_iff v).mpr hmem
            rw [hw, Option.some.injEq] at this
            simp [this]
      have once : u.contexts.count ⟨t, .write⟩ = 1 := by
        have := List.count_pos_iff.mpr ((h.writer_iff t).mp hw)
        have := h.count_write t
        omega
      rw [same, List.filter_beq, once]
      rfl

/-- Whatever threads do with a lock, one writer at most is inside, and nobody reads beside
it; the lock names the writer, and counts the reads of every thread that reads; and an
attempt that is refused has changed neither. -/
theorem run_exclusive (blocking : Bool) (events : List Event) :
    let u := (free blocking).run events
    (u.writes.length ≤ 1 ∧ (u.writes ≠ [] → u.contexts = u.writes)) ∧
    u.lock.writer = u.writes.head?.map Context.thread ∧
    ((u.lock.readers.map Prod.fst).Nodup ∧
      ∀ t, u.lock.readers.lookup t =
        if ⟨t, .read⟩ ∈ u.contexts then some (u.contexts.count ⟨t, .read⟩) else none) ∧
    ∀ t mode fault after,
      u.lock.request t mode = .refused fault after ∨
        u.lock.recheck t mode = .refused fault after →
      after.writer = u.lock.writer ∧ after.readers = u.lock.readers := by
  intro u
  have h : u.Faithful := faithful_run (faithful_free blocking) events
  refine ⟨⟨?_, ?_⟩, ?_, ⟨h.keys, h.lookup⟩, ?_⟩
  · rw [h.writes_eq]
    cases u.lock.writer <;> simp
  · intro hne
    obtain ⟨⟨t, mode⟩, hmem⟩ := List.exists_mem_of_ne_nil _ hne
    obtain ⟨hopen, hmode⟩ := List.mem_filter.mp hmem
    obtain rfl : mode = .write := by simpa using hmode
    refine (List.filter_eq_self.mpr ?_).symm
    rintro ⟨v, mode⟩ hv
    cases mode with
    | read => exact absurd hv (h.alone t v hopen)
    | write => simp
  · rw [h.writes_eq]
    cases u.lock.writer <;> rfl
  · rintro t mode fault after (hrequest | hrecheck)
    · exact request_refused hrequest
    · exact recheck_refused hrecheck

/-- A writer that waits for two reads of one thread gets in after both. -/
example :
    (free false).run [.request 1 .read, .request 1 .read, .request 2 .write, .leave 1 .read,
      .recheck 2 .write, .leave 1 .read, .recheck 2 .write] =
    ⟨⟨false, some 2, [], []⟩, [⟨2, .write⟩]⟩ := by
  decide

end Usage

end NinjaFile.Lock
