import NinjaFile.Proofs.Nesting.Plans
import NinjaFile.Proofs.Program.Releasing

/-!
# What nested use leaves behind

A thread that nobody disturbs gets through whatever it does with guards and lists, and finds
every guard as it was, whether what it did inside was refused, failed or came to its end.
Nothing goes on inside a write of the same list; and each list has got the items of the
additions that succeeded, one after the other, and nothing else.
-/

namespace NinjaFile

open Program Store

namespace Guard

theorem Within.leave {g : Guard} {t : ThreadId} (h : g.Within t) (mode : Mode) :
    (g.leave t mode).Within t := by
  cases h with
  | cooperative writing => cases mode <;> exact .cooperative _
  | free blocking => cases mode <;> exact .free blocking
  | writing blocking =>
      cases mode with
      | read => exact .writing blocking
      | write => exact .free blocking
  | reading blocking n =>
      cases mode with
      | write => exact .reading blocking n
      | read =>
          cases n with
          | zero =>
              simpa [Guard.leave, Lock.leave, Lock.dropReader, Lock.notifyAll] using
                Within.free blocking
          | succ n =>
              simpa [Guard.leave, Lock.leave, Lock.dropReader, Lock.notifyAll] using
                Within.reading blocking n

end Guard

@[simp] theorem written_nil (l : ListId) : written l [] = [] := rfl

@[simp] theorem written_append (l : ListId) (log more : List Attempt) :
    written l (log ++ more) = written l log ++ written l more :=
  List.flatMap_append

@[simp] theorem written_singleton (l : ListId) (a : Attempt) : written l [a] = a.written l :=
  List.flatMap_singleton ..

namespace Plan

variable {K : LockId → Prop} {t : ThreadId} {opened : List (LockId × Mode)}

/-- Nobody but the thread is in a guard, and a guard that it has opened for writing lets it
in no second time. -/
structure Ready (K : LockId → Prop) (t : ThreadId) (opened : List (LockId × Mode)) (s : Store) :
    Prop where
  known : ∀ lock, K lock → s.Has lock
  within : ∀ lock, (s.guard lock).Within t
  barred : ∀ lock, K lock → (lock, .write) ∈ opened → (s.guard lock).Bars t

/-- What a part of a plan has done, if these are the attempts that it made. -/
structure Done (K : LockId → Prop) (t : ThreadId) (s : Store) (log : List Attempt)
    (s' : Store) : Prop where
  has : ∀ lock, s.Has lock → s'.Has lock
  guard : ∀ lock, s.Has lock → s'.guard lock = s.guard lock
  within : ∀ lock, (s'.guard lock).Within t
  items : ∀ l, s.Has (.list l) → (s'.list l).items = (s.list l).items ++ written l log
  barred : ∀ a ∈ log, K a.aim.lock → a.aim.asksGuard → (a.aim.lock, .write) ∈ a.opened → a.Barred

section

variable {s s' s'' : Store} {log more : List Attempt}

theorem Done.refl (h : ∀ lock, (s.guard lock).Within t) : Done K t s [] s where
  has _ h := h
  guard _ _ := rfl
  within := h
  items l _ := by simp
  barred a ha := absurd ha List.not_mem_nil

theorem Done.trans (h : Done K t s log s') (h' : Done K t s' more s'') :
    Done K t s (log ++ more) s'' where
  has lock hs := h'.has lock (h.has lock hs)
  guard lock hs := (h'.guard lock (h.has lock hs)).trans (h.guard lock hs)
  within := h'.within
  items l hs := by
    rw [h'.items l (h.has _ hs), h.items l hs, written_append, List.append_assoc]
  barred a ha := (List.mem_append.mp ha).elim (h.barred a) (h'.barred a)

theorem Ready.after (h : Ready K t opened s) (done : Done K t s log s') :
    Ready K t opened s' where
  known lock hK := done.has lock (h.known lock hK)
  within := done.within
  barred lock hK hmem := by
    rw [done.guard lock (h.known lock hK)]
    exact h.barred lock hK hmem

theorem Done.note (h : Done K t s log s') {a : Attempt} (nothing : ∀ l, a.written l = [])
    (barred : K a.aim.lock → a.aim.asksGuard → (a.aim.lock, .write) ∈ a.opened → a.Barred) :
    Done K t s (log ++ [a]) s' :=
  { h with
    items := fun l hs => by simp [h.items l hs, nothing l]
    barred := fun b hb => (List.mem_append.mp hb).elim (h.barred b) fun hb => by
      obtain rfl := List.mem_singleton.mp hb
      exact barred }

end

/-- A program that comes to its end having done what it reports. -/
abbrev Reliable (K : LockId → Prop) (t : ThreadId) {α : Type}
    (q : Action (α × List Attempt)) (s : Store) : Prop :=
  q.Finishes t (fun r s' => ∃ x, r = .ok x ∧ Done K t s x.2 s') s

section

variable {α : Type} {during : Action (List Attempt)}

theorem reliable_reporting {P : (Store → Store) → Prop}
    (acts : ∀ f, P f → ∀ s, (∀ lock, (s.guard lock).Within t) → Done K t s [] (f s))
    (steps : ∀ s, Ready K t opened s →
      during.Finishes t (fun r s' => ∃ log, r = .ok log ∧ Done K t s log s') s)
    {p : Action α} {s : Store} (ready : Ready K t opened s) (h : p.Disciplined P Inert none) :
    Reliable K t (p.reporting during) s := by
  suffices ∀ held s₁, p.Disciplined P Inert held →
      (match held with
        | none => s₁ = s
        | some (lock, mode) => ∃ g, s₁ = s.setGuard lock g ∧ g.leave t mode = s.guard lock) →
      (p.reporting during).Finishes t (fun r s' => ∃ x, r = .ok x ∧ Done K t s x.2 s') s₁ from
    this none s h rfl
  clear h
  induction p generalizing s with
  | pure a =>
      rintro held s₁ rfl rfl
      exact ⟨_, rfl, .refl ready.within⟩
  | fail fault =>
      rintro held s₁ rfl rfl
      exact ⟨_, rfl, .refl ready.within⟩
  | act f next ih =>
      rintro held s₁ ⟨hP, still, hnext⟩ at_
      cases held with
      | none =>
          obtain rfl : s₁ = s := at_
          have first := acts f hP s₁ ready.within
          refine (ih s₁ (ready.after first) none (f s₁) (hnext s₁) rfl).mono ?_
          rintro _ s' ⟨x, rfl, done⟩
          exact ⟨x, rfl, first.trans done⟩
      | some context =>
          refine ih s₁ ready (some context) (f s₁) (hnext s₁) ?_
          rw [still nofun s₁]
          exact at_
  | enter lock mode next ih =>
      rintro held s₁ ⟨rfl, entered, refused⟩ rfl
      rw [reporting, Finishes]
      obtain ⟨g, heq, -, left, -⟩ | ⟨fault, heq⟩ := (ready.within lock).request mode
      · rw [heq]
        exact ih none ready _ _ entered ⟨g, rfl, left⟩
      · rw [heq]
        refine ih (some fault) ready none _ (refused fault) ?_
        exact setGuard_self _ lock
  | leave lock mode next ih =>
      rintro held s₁ ⟨rfl, hnext⟩ ⟨g, rfl, left⟩
      refine ih ready none _ hnext ?_
      exact setGuard_leave left
  | call request next ih =>
      rintro held s₁ ⟨rfl, hnext⟩ rfl
      refine (steps s₁ ready).then fun report s' done => ?_
      refine (ih (ready.after done) none s' hnext rfl).then fun x s'' rest => ?_
      exact ⟨_, rfl, done.trans rest⟩

theorem finishes_barred {s : Store} {lock : LockId} (h : (s.guard lock).Bars t) (mode : Mode)
    (body : Action α) {β : Type} (k : α → Action β) :
    ((guarded lock mode body >>= k).reporting during).Finishes t
      (fun r s' => ∃ fault, r = .ok (.error (.borrow fault), []) ∧ s' = s) s := by
  obtain ⟨fault, heq⟩ := h mode
  rw [guarded, bind_eq, enter_bind, reporting, Finishes, heq]
  exact ⟨fault, rfl, setGuard_self s lock⟩

end

/-! ## Methods of lists -/

section

variable {s s' : Store}

theorem done_aside {f : Store → Store} (h : Aside f) (within : ∀ lock, (s.guard lock).Within t) :
    Done K t s [] (f s) := by
  obtain ⟨logging, sources, heq⟩ := h s
  rw [heq]
  have same (lock : LockId) :
      Store.guard { s with logging := logging, sources := sources } lock = s.guard lock := by
    cases lock <;> rfl
  exact
    { has := fun lock h => by cases lock <;> exact h
      guard := fun lock _ => same lock
      within := fun lock => by rw [same]; exact within lock
      items := fun l _ => (List.append_nil _).symm
      barred := fun a ha => absurd ha List.not_mem_nil }

theorem done_insertList {l : GuardedList} (free : l.guard.Free)
    (within : ∀ lock, (s.guard lock).Within t) (attributes : List (String × Value)) (i j : Identity) :
    Done K t s [] (((s.insertList l).2.assignAll i attributes).assignAll j attributes) := by
  rw [assignAll_eq, assignAll_eq]
  have list (id : ListId) : (s.insertList l).2.list id = if id.index = s.lists.size then l else s.list id :=
    list_insertList s l id
  have old (id : ListId) (h : id.index < s.lists.size) : (s.insertList l).2.list id = s.list id := by
    rw [list, if_neg (Nat.ne_of_lt h)]
  constructor
  · rintro (id | id) h
    · change id.index < (s.lists.insert l).size
      rw [Table.size_insert]
      exact Nat.lt_succ_of_lt h
    · exact h
  · rintro (id | id) h
    · exact congrArg GuardedList.guard (old id h)
    · rfl
  · rintro (id | id)
    · change ((s.insertList l).2.list id).guard.Within t
      rw [list]
      split
      · exact free.within t
      · exact within (.list id)
    · exact within (.free id)
  · intro id h
    exact (congrArg GuardedList.items (old id h)).trans (List.append_nil _).symm
  · exact fun a ha => absurd ha List.not_mem_nil

theorem guard_append (s : Store) (l : ListId) (items : List Value) (lock : LockId) :
    (s.modifyList l (·.append items)).guard lock = s.guard lock := by
  cases lock with
  | list j =>
      rw [Store.guard, list_modifyList]
      split <;> rfl
  | free id => rfl

theorem done_append (within : ∀ lock, (s.guard lock).Within t) {l : ListId} {deed : ListDeed}
    (writes : deed.writes) (items : List Value) {a : Attempt} (offered : a.offered = .ok items)
    (aim : a.aim = .use l deed) (succeeded : ∃ v, a.outcome = .ok v)
    (inside : K (.list l) → (.list l, .write) ∉ a.opened) :
    Done K t s [a] (s.modifyList l (·.append items)) := by
  obtain ⟨v, outcome⟩ := succeeded
  constructor
  · rintro (j | id) h
    · change j.index < (s.modifyList l _).lists.size
      rw [size_modifyList]
      exact h
    · exact h
  · exact fun lock _ => guard_append s l items lock
  · intro lock
    rw [guard_append]
    exact within lock
  · intro j h
    rw [items_append_eq, written_singleton, Attempt.written, aim, offered, outcome]
    dsimp only
    by_cases hj : l = j
    · subst hj
      rw [if_pos ⟨rfl, h⟩, if_pos ⟨writes, rfl⟩]
    · rw [if_neg fun both => hj both.1, if_neg fun both => hj both.2, List.append_nil]
  · intro b hb hK _ hmem
    obtain rfl := List.mem_singleton.mp hb
    rw [aim] at hK hmem
    exact absurd hmem (inside hK)

end

section

variable {during : Action (List Attempt)} {s : Store} {l : ListId} {deed : ListDeed}
  {items : List Value}

theorem reliable_write {β : Type} (ready : Ready K t opened s) (writes : deed.writes)
    (answer : Store → β) (result : β → Value) :
    ((guarded (.list l) .write (.update fun s => (answer s, s.modifyList l (·.append items))) >>=
      fun b => return result b).reporting during).Finishes t
      (fun r s' => ∃ x, r = .ok x ∧ Done K t s (x.2 ++ [⟨opened, .use l deed, .ok items, x.1⟩]) s') s := by
  obtain ⟨g, heq, -, left, -⟩ | ⟨fault, heq⟩ := (ready.within (.list l)).request .write
  · rw [guarded, bind_eq, enter_bind, reporting, Finishes, heq]
    refine ⟨_, rfl, ?_⟩
    let after := (s.setGuard (.list l) g).modifyList l (·.append items)
    change Done K t s [_] (after.setGuard (.list l) ((after.guard (.list l)).leave t .write))
    rw [show after = _ from ListId.setGuard_append s l g items,
      setGuard_leave (left.trans (guard_append s l items _).symm)]
    refine done_append ready.within writes items rfl rfl ⟨_, rfl⟩ fun hK hmem => ?_
    obtain ⟨fault, hrefused⟩ := ready.barred _ hK hmem .write
    cases heq.symm.trans hrefused
  · rw [guarded, bind_eq, enter_bind, reporting, Finishes, heq]
    refine ⟨_, rfl, ?_⟩
    rw [setGuard_self]
    exact (Done.refl ready.within).note (fun _ => rfl) fun _ _ _ => ⟨fault, rfl⟩

theorem disciplined_adopt (l : ListId) (ownership : Value) :
    (l.adopt ownership).Disciplined
      (fun f => ∀ s : Store, (∀ lock, (s.guard lock).Within t) → Done K t s [] (f s)) Inert none := by
  have gathered {α : Type} {p : Action α} (h : p.Gathers) :
      p.Disciplined (fun f => ∀ s : Store, (∀ lock, (s.guard lock).Within t) → Done K t s [] (f s))
        Inert none :=
    h.mono (fun _ h _ => done_aside h) fun _ h => h
  refine disciplined_bind (gathered (gathers_read _)) fun own => ?_
  split
  · rfl
  · refine disciplined_bind (gathered (gathers_snapshot l)) fun items => ?_
    refine disciplined_bind (gathered (gathers_read _)) fun blocking => ?_
    refine disciplined_bind (disciplined_ofExcept _) fun ownership => ?_
    exact disciplined_update fun s within =>
      done_insertList (Guard.free_ofOwnership ..) within _ _ _

variable (steps : ∀ s, Ready K t opened s →
  during.Finishes t (fun r s' => ∃ log, r = .ok log ∧ Done K t s log s') s)
include steps

theorem reliable_look {α : Type} (ready : Ready K t opened s) (reads : deed.writes = false)
    (body : Action α) (k : α → Action Value)
    (gathers : (guarded (.list l) .read body >>= k).Gathers) :
    ((guarded (.list l) .read body >>= k).reporting during).Finishes t
      (fun r s' => ∃ x, r = .ok x ∧ Done K t s (x.2 ++ [⟨opened, .use l deed, .ok items, x.1⟩]) s') s := by
  have nothing (outcome : Except Fault Value) (j : ListId) :
      Attempt.written j ⟨opened, .use l deed, .ok items, outcome⟩ = [] := by
    rw [Attempt.written]
    cases outcome <;> simp [reads]
  by_cases inside : K (.list l) ∧ (.list l, .write) ∈ opened
  · refine (finishes_barred (ready.barred _ inside.1 inside.2) .read body k).mono ?_
    rintro _ s' ⟨fault, rfl, rfl⟩
    exact ⟨_, rfl, (Done.refl ready.within).note (nothing _) fun _ _ _ => ⟨fault, rfl⟩⟩
  · refine (reliable_reporting (fun _ h _ => done_aside h) steps ready gathers).mono ?_
    rintro _ s' ⟨x, rfl, done⟩
    exact ⟨x, rfl, done.note (nothing _) fun hK _ hmem => absurd ⟨hK, hmem⟩ inside⟩

theorem reliable_onList (ready : Ready K t opened s) (own : ∀ v, deed = .add v → items = [v]) :
    ((deed.onList l items).reporting during).Finishes t
      (fun r s' => ∃ x, r = .ok x ∧ Done K t s (x.2 ++ [⟨opened, .use l deed, .ok items, x.1⟩]) s') s := by
  have after {α : Type} {p : Action α} (h : p.Gathers) (f : α → Value) :
      (p >>= fun a => return f a).Gathers :=
    gathers_bind h fun _ => rfl
  cases deed with
  | add v =>
      obtain rfl := own v rfl
      exact reliable_write ready rfl (fun s => (s.list l).items.length) fun n => .int n
  | extend v => exact reliable_write ready rfl (fun _ => ()) fun _ => .null
  | snapshot => exact reliable_look steps ready rfl _ _ (after (gathers_snapshot l) .tuple)
  | iterate => exact reliable_look steps ready rfl _ _ (after (gathers_snapshot l) .list)
  | length => exact reliable_look steps ready rfl _ _ (after (gathers_length l) fun n => .int n)
  | truth => exact reliable_look steps ready rfl _ _ (after (gathers_length l) fun n => .bool (0 < n))
  | item index =>
      have same : ListDeed.onList l (.item index) items = l.item index >>= .pure := (bind_pure _).symm
      rw [same]
      exact reliable_look steps ready rfl _ _ (after (gathers_item l index) id)
  | adopt ownership =>
      have disciplined := disciplined_bind (disciplined_adopt (K := K) (t := t) l ownership)
        (k := fun l => return Value.object (.list l)) fun _ => rfl
      refine (reliable_reporting (fun _ h => h) steps ready disciplined).mono ?_
      rintro _ s' ⟨x, rfl, done⟩
      refine ⟨x, rfl, done.note (fun j => ?_) fun _ asks => nomatch asks⟩
      rw [Attempt.written]
      cases x.1 <;> rfl

theorem reliable_attemptUse (ready : Ready K t opened s) :
    Reliable K t (attemptUse opened l deed during) s := by
  -- What is offered for an addition is known from the start.
  have rest (items : List Value) (first : List Attempt) {s' : Store} (done : Done K t s first s')
      (own : ∀ v, deed = .add v → items = [v]) :
      (do
        let x ← (deed.onList l items).reporting during
        return (x.1, first ++ x.2 ++ [⟨opened, .use l deed, .ok items, x.1⟩]) :
          Action (Except Fault Value × List Attempt)).Finishes t
        (fun r s'' => ∃ x, r = .ok x ∧ Done K t s x.2 s'') s' := by
    refine (reliable_onList steps (ready.after done) own).then fun x s'' more => ?_
    refine ⟨_, rfl, ?_⟩
    rw [List.append_assoc]
    exact done.trans more
  have general (own : ∀ v, deed ≠ .add v) : Reliable K t (attemptUse opened l deed during) s := by
    refine (reliable_reporting (fun _ h _ => done_aside h) steps ready deed.gathers_offer).then ?_
    rintro ⟨offered, first⟩ s' done
    cases offered with
    | error fault => exact ⟨_, rfl, done.note (fun _ => rfl) fun _ _ _ => rfl⟩
    | ok items => exact rest items first done fun v hv => absurd hv (own v)
  cases deed with
  | add v => exact rest [v] [] (.refl ready.within) fun w hw => by rw [ListDeed.add.inj hw]
  | _ => exact general nofun

end

/-! ## Whole plans -/

section

variable {s s' : Store} {lock : LockId} {mode : Mode} {g : Guard} {inner : List Attempt}

theorem Ready.enter (ready : Ready K t opened s) (entered : (s.guard lock).request t mode = .entered g)
    (within : g.Within t) (bars : mode = .write → g.Bars t) :
    Ready K t ((lock, mode) :: opened) (s.setGuard lock g) where
  known other hK := has_setGuard.mpr (ready.known other hK)
  within other := by
    by_cases same : lock = other
    · subst same
      obtain heq | ⟨heq, -⟩ := guard_setGuard_self s lock g <;> rw [heq]
      · exact within
      · exact ready.within lock
    · rw [guard_setGuard_of_ne same]
      exact ready.within other
  barred other hK hmem := by
    obtain heq | hmem := List.mem_cons.mp hmem
    · obtain ⟨rfl, rfl⟩ := Prod.mk.inj heq
      rw [guard_setGuard_of_has (ready.known _ hK)]
      exact bars rfl
    · have bars := ready.barred other hK hmem
      by_cases same : lock = other
      · subst same
        obtain ⟨fault, refused⟩ := bars mode
        cases entered.symm.trans refused
      · rwa [guard_setGuard_of_ne same]

theorem Done.leave (ready : Ready K t opened s) (entered : (s.guard lock).request t mode = .entered g)
    (left : g.leave t mode = s.guard lock) (done : Done K t (s.setGuard lock g) inner s') :
    Done K t s (⟨opened, .hold lock mode, .ok [], .ok .null⟩ :: inner)
      (s'.setGuard lock ((s'.guard lock).leave t mode)) where
  has other h := has_setGuard.mpr (done.has other (has_setGuard.mpr h))
  guard other h := by
    have same := done.guard other (has_setGuard.mpr h)
    by_cases heq : lock = other
    · subst heq
      rw [guard_setGuard_of_has (done.has lock (has_setGuard.mpr h)), same,
        guard_setGuard_of_has h, left]
    · rw [guard_setGuard_of_ne heq, same, guard_setGuard_of_ne heq]
  within other := by
    by_cases heq : lock = other
    · subst heq
      obtain heq | ⟨heq, -⟩ := guard_setGuard_self s' lock ((s'.guard lock).leave t mode) <;> rw [heq]
      · exact (done.within lock).leave mode
      · exact done.within lock
    · rw [guard_setGuard_of_ne heq]
      exact done.within other
  items l h := by
    rw [items_setGuard, done.items l (has_setGuard.mpr h), items_setGuard]
    rfl
  barred a ha := by
    obtain rfl | ha := List.mem_cons.mp ha
    · intro hK _ hmem
      obtain ⟨fault, refused⟩ := ready.barred lock hK hmem mode
      cases entered.symm.trans refused
    · exact done.barred a ha

theorem reliable_behind {log : List Attempt} {q : Action (Except Fault Value × List Attempt)}
    (done : Done K t s log s') (h : Reliable K t q s') :
    (behind log q).Finishes t (fun r s'' => ∃ x, r = .ok x ∧ Done K t s x.2 s'') s' :=
  h.then fun _ _ more => ⟨_, rfl, done.trans more⟩

/-- A thread gets through every plan, and the record says what it has done. -/
theorem reliable_recorded (p : Plan) (ready : Ready K t opened s) :
    Reliable K t (p.recorded opened) s := by
  induction p generalizing opened s with
  | finish outcome => exact ⟨_, rfl, .refl ready.within⟩
  | use l deed during next duringIH ih =>
      have steps (s : Store) (ready : Ready K t opened s) :
          (do return (← during.recorded opened).2 : Action (List Attempt)).Finishes t
            (fun r s' => ∃ log, r = .ok log ∧ Done K t s log s') s :=
        (duringIH ready).then fun x _ done => ⟨x.2, rfl, done⟩
      refine (reliable_attemptUse steps ready).then fun x s' done => ?_
      exact reliable_behind done (ih x.1 (ready.after done))
  | hold lock mode body next bodyIH ih =>
      rw [Reliable, recorded, Finishes]
      obtain ⟨g, heq, within, left, bars⟩ | ⟨fault, heq⟩ := (ready.within lock).request mode
      · rw [heq]
        refine (bodyIH (ready.enter heq within bars)).then fun x s' inside => ?_
        have done := Done.leave ready heq left inside
        exact reliable_behind done (ih x.1 (ready.after done))
      · rw [heq]
        have done : Done K t s [⟨opened, .hold lock mode, .ok [], .error (.borrow fault)⟩]
            (s.setGuard lock (s.guard lock)) := by
          rw [setGuard_self]
          exact (Done.refl ready.within).note (fun _ => rfl) fun _ _ _ => ⟨fault, rfl⟩
        exact reliable_behind done (ih _ (ready.after done))

end

/-- A thread that nobody disturbs gets through whatever it does with lists and guards, and
the record of its attempts changes nothing.  Every guard is then as it was, so that one that
was free is free again.  What was attempted inside a write of the same guard was refused; if
the items to extend a list with could not even be taken, then it failed with that fault.
Every list holds what it held and the items of the additions that succeeded, in the order
in which they were made. -/
theorem run_restores (p : Plan) (t : ThreadId) (s : Store)
    (within : ∀ lock, (s.guard lock).Within t) {τ : Type}
    (serve : SourceId → Store × τ → Store × τ) (x : τ) :
    ∃ outcome log s',
      p.action.run t serve (s, x) = (.ofResult outcome, (s', x)) ∧
      (p.recorded []).run t serve (s, x) = (.done (outcome, log), (s', x)) ∧
      (∀ lock, s.Has lock →
        s'.guard lock = s.guard lock ∧ ((s.guard lock).Free → (s'.guard lock).Free)) ∧
      (∀ a ∈ log, s.Has a.aim.lock → a.aim.asksGuard →
        (a.aim.lock, .write) ∈ a.opened → a.Barred) ∧
      ∀ l, s.Has (.list l) → (s'.list l).items = (s.list l).items ++ written l log := by
  have ready : Ready s.Has t [] s := ⟨fun _ h => h, within, fun _ _ hmem => nomatch hmem⟩
  have reliable := reliable_recorded p ready
  obtain ⟨_, s', hrun, ⟨outcome, log⟩, rfl, done⟩ := reliable.run serve x
  refine ⟨outcome, log, s', ?_, hrun, fun lock has => ?_, fun a ha => done.barred a ha, done.items⟩
  · rw [(reports_recorded [] p).eq, run_bind, hrun]
    cases outcome <;> rfl
  · rw [done.guard lock has]
    exact ⟨rfl, id⟩

/-! ## Runs -/

/-- A list of a single owner and a shared one, which nobody uses. -/
def twoLists : Store :=
  let s := ((Store.ofFiles ⟨[], []⟩).insertList (.make .single false [.text "a"])).2
  (s.insertList (.make .shared false [])).2

theorem within_twoLists (t : ThreadId) (lock : LockId) : (twoLists.guard lock).Within t := by
  rcases lock with ⟨_ | _ | i⟩ | id
  · exact .cooperative false
  · exact .free false
  · exact .cooperative false
  · exact .cooperative false

/-- A write inside a write is refused, an addition inside a read of the same list succeeds
with a single owner and is refused if the list is shared, and all is given up with a failure
of the caller's own. -/
def givenUp : Plan :=
  .hold (.list ⟨0⟩) .write
    (.hold (.list ⟨0⟩) .write (.finish (.ok .null)) fun _ =>
      .hold (.list ⟨1⟩) .read
        (.use ⟨1⟩ (.add (.text "b")) (.finish (.ok .null)) fun _ =>
          .finish (.error (.raised "enough")))
        .finish)
    fun outcome =>
      .hold (.list ⟨0⟩) .read
        (.use ⟨0⟩ (.extend (.list [.text "c", .text "d"])) (.finish (.ok .null)) fun _ =>
          .finish outcome)
        .finish

theorem run_restores_givenUp :
    (∀ lock, (twoLists.guard lock).Within 3) ∧
    ∃ log s', (∀ lock, twoLists.Has lock → s'.guard lock = twoLists.guard lock) ∧
      givenUp.action.run 3 (fun _ m => m) (twoLists, ()) =
        (.failed (.raised "enough"), (s', ())) ∧
      (s'.list ⟨0⟩).items = [.text "a"] ++ written ⟨0⟩ log ∧
      (s'.list ⟨0⟩).items = [.text "a", .text "c", .text "d"] ∧ (s'.list ⟨1⟩).items = [] := by
  refine ⟨within_twoLists 3, ?_⟩
  obtain ⟨outcome, log, s', hrun, -, guards, -, items⟩ :=
    run_restores givenUp 3 twoLists (within_twoLists 3) (fun _ m => m) ()
  obtain ⟨rfl, rfl⟩ : outcome = .error (.raised "enough") ∧
      s' = (givenUp.action.run 3 (fun _ m => m) (twoLists, ())).2.1 := by
    rw [hrun]
    cases outcome with
    | ok v => cases hrun
    | error fault =>
        cases hrun
        exact ⟨rfl, rfl⟩
  exact ⟨log, _, fun lock has => (guards lock has).1, hrun, items ⟨0⟩ (by decide), rfl, rfl⟩

/-- A list is extended with a number inside a write of that list. -/
def unsuitable : Plan :=
  .hold (.list ⟨0⟩) .write (.use ⟨0⟩ (.extend (.int 5)) (.finish (.ok .null)) .finish) .finish

/-- What cannot be iterated is found out before the guard is asked for. -/
theorem unsuitable_not_refused :
    ∃ log,
      ((unsuitable.recorded []).run 3 (fun _ m => m) (twoLists, ())).1 =
        .done (.error (.notIterable "int"), log) ∧
      ¬ ∀ a ∈ log, (a.aim.lock, .write) ∈ a.opened → ∃ fault, a.outcome = .error (.borrow fault) := by
  refine ⟨[⟨[], .hold (.list ⟨0⟩) .write, .ok [], .ok .null⟩,
    ⟨[(.list ⟨0⟩, .write)], .use ⟨0⟩ (.extend (.int 5)), .error (.notIterable "int"),
      .error (.notIterable "int")⟩], ?_, fun refused => ?_⟩
  · simp only [unsuitable, recorded]
    rfl
  · obtain ⟨fault, ⟨⟩⟩ := refused _ (.tail _ (.head _)) (.head _)

end Plan

end NinjaFile
