import NinjaFile.Proofs.Lock.Usage

/-!
# Writers of a lock that does not let them wait for each other

Such a lock refuses a writer for as long as another one is inside, and lets it in when
nobody is.  While there are only readers, a writer waits for them; nothing is known then of
another one that waits as well, so that several of them can do so.
-/

namespace NinjaFile.Lock

namespace Usage

/-- How an attempt to write can end, by who is inside. -/
inductive WriteOutcome (u : Usage) (t : ThreadId) : Entry Lock → Prop where
  | entered (lock : Lock) (nobody : u.contexts = []) : WriteOutcome u t (.entered lock)
  | waits (lock : Lock) (reads : ∃ v, ⟨v, .read⟩ ∈ u.contexts)
      (idle : ∀ v, ⟨v, .write⟩ ∉ u.contexts) : WriteOutcome u t (.waits lock)
  | held (lock : Lock) (own : ∃ mode, ⟨t, mode⟩ ∈ u.contexts) :
      WriteOutcome u t (.refused (.heldByThread .write) lock)
  | written (lock : Lock) (other : ∃ v, ⟨v, .write⟩ ∈ u.contexts) :
      WriteOutcome u t (.refused .writtenElsewhere lock)

variable {u : Usage}

theorem Faithful.contexts_eq_nil (h : u.Faithful) (writer : u.lock.writer = none)
    (readers : u.lock.readers = []) : u.contexts = [] := by
  refine List.eq_nil_iff_forall_not_mem.mpr ?_
  rintro ⟨v, mode⟩ hmem
  cases mode with
  | write => exact h.writer_eq_none_iff.mp writer v hmem
  | read => exact h.readers_eq_nil_iff.mp readers v hmem

theorem Faithful.recheck_write (h : u.Faithful) (impatient : u.lock.blocking = false)
    (t : ThreadId) : WriteOutcome u t (u.lock.recheck t .write) := by
  rw [recheck, impatient]
  cases writer : u.lock.writer with
  | some v => exact .written _ ⟨v, (h.writer_iff v).mp writer⟩
  | none =>
      have idle := h.writer_eq_none_iff.mp writer
      cases readers : u.lock.readers with
      | nil => exact .entered _ (h.contexts_eq_nil writer readers)
      | cons head rest =>
          refine .waits _ ?_ idle
          by_contra none_reads
          have := h.readers_eq_nil_iff.mpr fun v hv => none_reads ⟨v, hv⟩
          rw [readers] at this
          contradiction

theorem Faithful.held_pos_iff (h : u.Faithful) (t : ThreadId) :
    0 < u.lock.held t ↔ ⟨t, .read⟩ ∈ u.contexts := by
  rw [held, h.lookup t]
  by_cases hmem : (⟨t, .read⟩ : Context) ∈ u.contexts
  · simp [hmem, List.count_pos_iff]
  · simp [hmem]

theorem Faithful.request_write (h : u.Faithful) (impatient : u.lock.blocking = false)
    (t : ThreadId) : WriteOutcome u t (u.lock.request t .write) := by
  rw [request]
  split
  · next own =>
      refine .held _ ?_
      obtain writes | reads := own
      · exact ⟨.write, (h.writer_iff t).mp writes⟩
      · exact ⟨.read, (h.held_pos_iff t).mp reads⟩
  · exact h.recheck_write impatient t

theorem blocking_next (u : Usage) (e : Event) : (u.next e).lock.blocking = u.lock.blocking := by
  have rechecked (t : ThreadId) (mode : Mode) :
      (u.enter ⟨t, mode⟩ (u.lock.recheck t mode)).lock.blocking = u.lock.blocking := by
    cases mode <;> rw [recheck] <;> split
    · rfl
    · rfl
    · rfl
    · split <;> rfl
  cases e with
  | request t mode =>
      rw [next]
      split
      · rfl
      · cases mode <;> rw [request] <;> split <;> first | rfl | exact rechecked _ _
  | recheck t mode =>
      rw [next]
      split
      · exact rechecked t mode
      · rfl
  | leave t mode =>
      rw [next]
      split
      · cases mode <;> rfl
      · rfl

theorem blocking_run (u : Usage) (events : List Event) :
    (u.run events).lock.blocking = u.lock.blocking := by
  induction events generalizing u with
  | nil => rfl
  | cons e events ih => exact (ih (u.next e)).trans (blocking_next u e)

/-- Whatever threads have done with such a lock, a thread that asks to write, or that looks
again after it has waited, gets in when nobody is inside, is refused while somebody writes
or while it is inside itself, and waits as long as there are only readers. -/
theorem run_write (events : List Event) (t : ThreadId) :
    let u := (free false).run events
    WriteOutcome u t (u.lock.request t .write) ∧ WriteOutcome u t (u.lock.recheck t .write) := by
  intro u
  have h : u.Faithful := faithful_run (faithful_free false) events
  have impatient : u.lock.blocking = false := blocking_run (free false) events
  exact ⟨h.request_write impatient t, h.recheck_write impatient t⟩

/-- Two writers wait for the same reader, one after the other gets in. -/
example :
    let u := (free false).run [.request 1 .read, .request 2 .write, .request 3 .write]
    (u.waitsFor ⟨2, .write⟩ ∧ u.waitsFor ⟨3, .write⟩) ∧
      (u.run [.leave 1 .read, .recheck 2 .write, .leave 2 .write, .recheck 3 .write]).contexts =
        [⟨3, .write⟩] := by
  decide

end Usage

end NinjaFile.Lock
