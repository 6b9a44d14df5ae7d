import NinjaFile.Proofs.Lock.Writers

/-!
# Wake-ups

Every thread that leaves a lock notifies all who wait for it.  So a thread that has not been
notified since it began to wait still has what it waits for in its way, and would only wait
again if it looked at the lock now: no wake-up is missed.
-/

namespace NinjaFile.Lock

theorem mem_withoutWaiter {lock : Lock} {t : ThreadId} {w : Waiter} :
    w ∈ (lock.withoutWaiter t).waiting ↔ w ∈ lock.waiting ∧ w.thread ≠ t := by
  simp [withoutWaiter]

namespace Usage

/-- What is in the way of a thread that waits: another one writes, or it wants to write
itself and there are readers. -/
def Obstructed (u : Usage) (w : Waiter) : Prop :=
  (∃ v, v ≠ w.thread ∧ ⟨v, .write⟩ ∈ u.contexts) ∨
    (w.mode = .write ∧ ∃ v, ⟨v, .read⟩ ∈ u.contexts)

/-- Whoever waits is outside, and whoever has not been notified waits for a reason; where
writers do not wait for each other, this reason is no writer. -/
structure Awake (u : Usage) : Prop where
  outside : ∀ w ∈ u.lock.waiting, ∀ c ∈ u.contexts, c.thread ≠ w.thread
  obstructed : ∀ w ∈ u.lock.waiting, w.notified = false → u.Obstructed w
  unwritten : u.lock.blocking = false →
    ∀ w ∈ u.lock.waiting, w.notified = false → w.mode = .write → u.lock.writer = none

variable {u : Usage}

theorem awake_free (blocking : Bool) : (free blocking).Awake := ⟨nofun, nofun, fun _ => nofun⟩

theorem Obstructed.cons {w : Waiter} (h : u.Obstructed w) (lock : Lock) (c : Context) :
    Obstructed ⟨lock, c :: u.contexts⟩ w := by
  rcases h with ⟨v, other, writes⟩ | ⟨wants, v, reads⟩
  · exact .inl ⟨v, other, List.mem_cons_of_mem c writes⟩
  · exact .inr ⟨wants, v, List.mem_cons_of_mem c reads⟩

theorem isWaiting_iff {t : ThreadId} : u.isWaiting t ↔ ∃ w ∈ u.lock.waiting, w.thread = t := by
  simp [isWaiting]

theorem exists_read (h : u.Faithful) (busy : u.lock.readers ≠ []) :
    ∃ v, ⟨v, .read⟩ ∈ u.contexts := by
  by_contra none_reads
  exact busy (h.readers_eq_nil_iff.mpr fun v hv => none_reads ⟨v, hv⟩)

/-! ## Attempts -/

theorem Awake.withoutWaiter (h : u.Awake) (t : ThreadId) :
    Awake ⟨u.lock.withoutWaiter t, u.contexts⟩ where
  outside w hw := h.outside w (mem_withoutWaiter.mp hw).1
  obstructed w hw := h.obstructed w (mem_withoutWaiter.mp hw).1
  unwritten impatient w hw := h.unwritten impatient w (mem_withoutWaiter.mp hw).1

theorem Awake.wait (h : u.Awake) {t : ThreadId} {mode : Mode}
    (outside : ∀ c ∈ u.contexts, c.thread ≠ t) (obstructed : u.Obstructed ⟨t, mode, false⟩)
    (unwritten : u.lock.blocking = false → mode = .write → u.lock.writer = none) :
    Awake ⟨u.lock.wait t mode, u.contexts⟩ := by
  have cases {w : Waiter} (hw : w ∈ (u.lock.wait t mode).waiting) :
      w ∈ u.lock.waiting ∨ w = ⟨t, mode, false⟩ :=
    (List.mem_append.mp hw).imp (fun old => (mem_withoutWaiter.mp old).1) List.mem_singleton.mp
  constructor
  · intro w hw
    obtain old | rfl := cases hw
    · exact h.outside w old
    · exact outside
  · intro w hw not
    obtain old | rfl := cases hw
    · exact h.obstructed w old not
    · exact obstructed
  · intro impatient w hw not wants
    obtain old | rfl := cases hw
    · exact h.unwritten impatient w old not wants
    · exact unwritten impatient wants

/-- Nobody waits unnotified when a writer gets in, as nobody has been inside. -/
theorem Awake.enter_write (h : u.Awake) (nobody : u.contexts = []) (t : ThreadId) :
    Awake ⟨{ u.lock.withoutWaiter t with writer := some t }, ⟨t, .write⟩ :: u.contexts⟩ := by
  have notified : ∀ w ∈ u.lock.waiting, w.notified = false → False := by
    intro w hw not
    have obstructed := h.obstructed w hw not
    simp [Obstructed, nobody] at obstructed
  constructor
  · intro w hw c hc
    rw [nobody] at hc
    obtain rfl := List.mem_singleton.mp hc
    exact (mem_withoutWaiter.mp hw).2.symm
  · exact fun w hw not => (notified w (mem_withoutWaiter.mp hw).1 not).elim
  · exact fun _ w hw not => (notified w (mem_withoutWaiter.mp hw).1 not).elim

/-- A reader that gets in adds to what is in the way of writers. -/
theorem Awake.enter_read (h : u.Awake) (t : ThreadId) :
    Awake ⟨{ u.lock.withoutWaiter t with readers := addReader t u.lock.readers },
      ⟨t, .read⟩ :: u.contexts⟩ where
  outside w hw c hc := by
    obtain ⟨old, other⟩ := mem_withoutWaiter.mp hw
    rcases List.mem_cons.mp hc with rfl | hc
    · exact other.symm
    · exact h.outside w old c hc
  obstructed w hw not := (h.obstructed w (mem_withoutWaiter.mp hw).1 not).cons _ _
  unwritten impatient w hw := h.unwritten impatient w (mem_withoutWaiter.mp hw).1

/-- A thread that is outside looks at the lock. -/
theorem awake_recheck (h : u.Faithful) (awake : u.Awake) {t : ThreadId} (mode : Mode)
    (outside : ∀ c ∈ u.contexts, c.thread ≠ t) :
    (u.enter ⟨t, mode⟩ (u.lock.recheck t mode)).Awake := by
  have written {v : ThreadId} (hv : u.lock.writer = some v) : u.Obstructed ⟨t, mode, false⟩ := by
    have writes := (h.writer_iff v).mp hv
    exact .inl ⟨v, outside _ writes, writes⟩
  cases mode with
  | read =>
      rw [recheck]
      cases hw : u.lock.writer with
      | some v =>
          refine awake.wait outside (written hw) fun _ writes => ?_
          cases writes
      | none => exact awake.enter_read t
  | write =>
      rw [recheck]
      split
      · exact awake.withoutWaiter t
      · next patient =>
          rw [Bool.and_eq_true, Bool.not_eq_true', not_and, Bool.not_eq_false] at patient
          split
          · next busy =>
              refine awake.wait outside ?_ fun impatient _ => ?_
              · cases hw : u.lock.writer with
                | some v => exact written hw
                | none =>
                    refine .inr ⟨rfl, exists_read h ?_⟩
                    simpa [hw] using busy
              · by_contra busy
                rw [patient (Option.isSome_iff_ne_none.mpr busy)] at impatient
                cases impatient
          · next idle =>
              simp only [Bool.or_eq_true, Option.isSome_iff_ne_none, Bool.not_eq_true',
                List.isEmpty_eq_false_iff, not_or, not_not] at idle
              exact awake.enter_write (h.contexts_eq_nil idle.1 idle.2) t

/-- A thread that asks is refused at once if it would have to wait for itself. -/
theorem awake_request (h : u.Faithful) (awake : u.Awake) (t : ThreadId) (mode : Mode) :
    (u.enter ⟨t, mode⟩ (u.lock.request t mode)).Awake := by
  cases mode with
  | write =>
      rw [request]
      split
      · exact awake
      · next own =>
          rw [not_or, h.writer_iff, h.held_pos_iff] at own
          refine awake_recheck h awake .write ?_
          rintro ⟨v, mode⟩ hc rfl
          cases mode with
          | write => exact own.1 hc
          | read => exact own.2 hc
  | read =>
      rw [request]
      split
      · exact awake
      · next own =>
          cases hw : u.lock.writer with
          | none =>
              rw [recheck, hw]
              exact awake.enter_read t
          | some writer =>
              -- Nobody reads beside the writer, so the thread is not inside.
              have writes := (h.writer_iff writer).mp hw
              refine awake_recheck h awake .read ?_
              rintro ⟨v, mode⟩ hc rfl
              cases mode with
              | write => exact own ((h.writer_iff v).mpr hc)
              | read => exact h.alone writer v writes hc

/-! ## All runs -/

theorem Awake.leave (h : u.Awake) (c : Context) : (u.leave c).Awake := by
  have waiting : (u.leave c).lock.waiting =
      u.lock.waiting.map fun w => { w with notified := true } := by
    obtain ⟨t, mode⟩ := c
    cases mode <;> rfl
  have notified : ∀ w ∈ (u.leave c).lock.waiting, w.notified = true := by
    rw [waiting]
    intro w hw
    obtain ⟨_, -, rfl⟩ := List.mem_map.mp hw
    rfl
  refine ⟨?_, fun w hw not => ?_, fun _ w hw not => ?_⟩
  · rw [waiting]
    intro w hw d hd
    obtain ⟨old, hold, rfl⟩ := List.mem_map.mp hw
    exact h.outside old hold d (List.mem_of_mem_erase hd)
  · rw [notified w hw] at not
    cases not
  · rw [notified w hw] at not
    cases not

theorem awake_next (h : u.Faithful) (awake : u.Awake) (e : Event) : (u.next e).Awake := by
  cases e with
  | request t mode =>
      rw [next]
      split
      · exact awake
      · exact awake_request h awake t mode
  | recheck t mode =>
      rw [next]
      split
      · next waits =>
          obtain ⟨w, hw, here⟩ := List.any_eq_true.mp waits
          obtain ⟨rfl, rfl⟩ := of_decide_eq_true here
          exact awake_recheck h awake w.mode (awake.outside w hw)
      · exact awake
  | leave t mode =>
      rw [next]
      split
      · exact awake.leave _
      · exact awake

theorem awake_run (h : u.Faithful) (awake : u.Awake) (events : List Event) :
    (u.run events).Awake := by
  induction events generalizing u with
  | nil => exact awake
  | cons e events ih => exact ih (faithful_next h e) (awake_next h awake e)

/-- Whoever has not been notified would wait again. -/
theorem Awake.recheck_waits (awake : u.Awake) (h : u.Faithful) {w : Waiter}
    (hw : w ∈ u.lock.waiting) (not : w.notified = false) :
    u.lock.recheck w.thread w.mode = .waits (u.lock.wait w.thread w.mode) := by
  have obstructed := awake.obstructed w hw not
  cases hmode : w.mode with
  | read =>
      rw [recheck, if_pos]
      obtain ⟨v, -, writes⟩ | ⟨wants, -⟩ := obstructed
      · rw [(h.writer_iff v).mpr writes]
        rfl
      · rw [hmode] at wants
        cases wants
  | write =>
      have patient : ¬ (u.lock.writer.isSome && !u.lock.blocking) = true := by
        rw [Bool.and_eq_true, Bool.not_eq_true']
        rintro ⟨written, impatient⟩
        rw [awake.unwritten impatient w hw not hmode] at written
        cases written
      rw [recheck, if_neg patient, if_pos]
      rw [Bool.or_eq_true, Bool.not_eq_true', List.isEmpty_eq_false_iff]
      obtain ⟨v, -, writes⟩ | ⟨-, v, reads⟩ := obstructed
      · refine .inl ?_
        rw [(h.writer_iff v).mpr writes]
        rfl
      · exact .inr fun none => h.readers_eq_nil_iff.mp none v reads

/-- Whatever threads do with a lock, each one that waits and has not been notified since it
began to has a reason to wait: another one writes, or it wants to write itself and somebody
reads; where writers do not wait for each other, nobody writes while a writer waits like
that.  So it would wait again if it looked. -/
theorem run_unnotified_obstructed (blocking : Bool) (events : List Event) :
    let u := (free blocking).run events
    ∀ w ∈ u.lock.waiting, w.notified = false →
      ((∃ v, v ≠ w.thread ∧ ⟨v, .write⟩ ∈ u.contexts) ∨
        (w.mode = .write ∧ ∃ v, ⟨v, .read⟩ ∈ u.contexts)) ∧
      (blocking = false → w.mode = .write →
        u.lock.writer = none ∧ ∀ v, ⟨v, .write⟩ ∉ u.contexts) ∧
      u.lock.recheck w.thread w.mode = .waits (u.lock.wait w.thread w.mode) := by
  intro u w hw not
  have h : u.Faithful := faithful_run (faithful_free blocking) events
  have awake : u.Awake := awake_run (faithful_free blocking) (awake_free blocking) events
  refine ⟨awake.obstructed w hw not, fun impatient wants => ?_, awake.recheck_waits h hw not⟩
  have unwritten : u.lock.blocking = false := (blocking_run (free blocking) events).trans impatient
  have none := awake.unwritten unwritten w hw not wants
  exact ⟨none, h.writer_eq_none_iff.mp none⟩

/-- A writer is notified when one of two reads ends, looks again and waits for the other. -/
theorem run_unnotified_obstructed_again :
    let u := (free false).run [.request 1 .read, .request 1 .read, .request 2 .write,
      .leave 1 .read, .recheck 2 .write]
    ⟨2, .write, false⟩ ∈ u.lock.waiting ∧
      (⟨1, .read⟩ ∈ u.contexts ∧ u.lock.writer = none) := by
  intro u
  have waits : (⟨2, .write, false⟩ : Waiter) ∈ u.lock.waiting := by decide
  obtain ⟨-, idle, -⟩ := run_unnotified_obstructed false _ ⟨2, .write, false⟩ waits rfl
  exact ⟨waits, by decide, (idle rfl rfl).1⟩

end Usage

end NinjaFile.Lock
