import NinjaFile.Proofs.History.Ledger

/-!
# Steps of the calls on a shared list

What one step of a call does to the list and to its ledger, by the stage that the call is
in.
-/

namespace NinjaFile.History

open Program Store

variable {l : ListId} {first : List Value} {sys : System Call} {history : List Visit} {i : Nat}
  {task : Task Call} {deed : ListDeed}

/-! ## Who visits -/

section Visits

variable {lock : LockId} {mode : Mode} {next : Option BorrowFault → Action Value}

theorem visit?_none (found : sys.tasks[i]? = some task)
    (h : ∀ lock mode next, task.phase.program ≠ .enter lock mode next) :
    visit? l sys (.step i) = none := by
  rw [visit?_step found, entered?]
  split
  · next program _ => exact absurd program (h _ _ _)
  · rfl

theorem visit?_of_ended {r : Except Fault Value} (found : sys.tasks[i]? = some task)
    (h : task.phase.program = Program.ofExcept r) : visit? l sys (.step i) = none := by
  refine visit?_none found fun lock mode next heq => ?_
  rw [h] at heq
  cases r <;> cases heq

theorem visit?_kept_out (found : sys.tasks[i]? = some task)
    (h : ∀ g, task.entry? sys.store ≠ some (.entered g)) : visit? l sys (.step i) = none := by
  rw [visit?_step found, entered?]
  split
  · next entry => exact absurd entry (h _)
  · rfl

theorem visit?_entered (found : sys.tasks[i]? = some task)
    (program : task.phase.program = .enter lock mode next) {g : Guard}
    (entry : task.entry? sys.store = some (.entered g)) :
    visit? l sys (.step i) =
      if lock = .list l then some ⟨i, mode, (sys.store.list l).items⟩ else none := by
  rw [visit?_step found, entered?, program, entry]
  rfl

end Visits

/-! ## Steps that write nothing -/

/-- What a step of a call on the list comes to that writes nothing. -/
structure Silent (l : ListId) (sys : System Call) (history : List Visit) (i : Nat)
    (deed : ListDeed) (task : Task Call) : Prop where
  items : ((task.advance sys.store).2.list l).items = (sys.store.list l).items
  same : wrote l (task.advance sys.store).1.progress.trail = wrote l task.progress.trail
  staged : Stage l (sys.store.list l).items (history ++ (visit? l sys (.step i)).toList) i deed
    (task.advance sys.store).1

theorem Silent.of_advance {o : Option Visit} {task' : Task Call} {s' : Store}
    (visit : visit? l sys (.step i) = o) (advance : task.advance sys.store = (task', s'))
    (items : (s'.list l).items = (sys.store.list l).items)
    (same : wrote l task'.progress.trail = wrote l task.progress.trail)
    (staged : Stage l (sys.store.list l).items (history ++ o.toList) i deed task') :
    Silent l sys history i deed task := by
  constructor
  · rw [advance, items]
  · rw [advance, same]
  · rwa [advance, visit]

theorem Silent.unseen {task' : Task Call} {s' : Store}
    (visit : visit? l sys (.step i) = none) (advance : task.advance sys.store = (task', s'))
    (items : (s'.list l).items = (sys.store.list l).items)
    (same : wrote l task'.progress.trail = wrote l task.progress.trail)
    (staged : Stage l (sys.store.list l).items history i deed task') :
    Silent l sys history i deed task :=
  .of_advance visit advance items same (by simpa using staged)

theorem silent_of_ended {r : Except Fault Value} (found : sys.tasks[i]? = some task)
    (h : task.phase.program = Program.ofExcept r)
    (stage : Stage l (sys.store.list l).items history i deed task) :
    Silent l sys history i deed task :=
  .unseen (visit?_of_ended found h) (Task.advance_of_outcome (outcome?_eq_some.mpr h) _) rfl rfl stage

theorem visitsFor_reads (fresh : visitsFor deed i history = []) (takes : deed.takes)
    (lock : LockId) (items : List Value) :
    visitsFor deed i
      (history ++ (if lock = .list l then some (⟨i, .read, items⟩ : Visit) else none).toList) = [] := by
  rw [visitsFor_append, fresh, List.nil_append]
  split
  · simp [visitsFor, takes]
  · rfl

section Gathering

variable {g : Action (List Value)} {held : Option (LockId × Mode)} {s : Store}

theorem silent_asking (found : sys.tasks[i]? = some task) (asks : deed.asksGuard)
    {items : List Value} (program : task.phase.program = deed.onList l items)
    (offers : deed.Offers items task.progress.trail) (inside : task.progress.inside = [])
    (nothing : wrote l task.progress.trail = []) (fresh : visitsFor deed i history = []) :
    Silent l sys history i deed task := by
  have asking := program.trans (ListDeed.onList_eq asks l offers)
  obtain ⟨entry, hentry, -, advance⟩ := advance_enter asking sys.store
  cases entry with
  | entered g =>
      have visit := visit?_entered (l := l) found asking hentry
      rw [if_pos rfl] at visit
      refine .of_advance visit advance (items_setGuard ..) rfl ?_
      refine .visiting items ⟨i, deed.mode, (sys.store.list l).items⟩ ?_ rfl ?_ rfl nothing
        fun _ => ⟨history, rfl⟩
      · refine ⟨offers, rfl, ?_⟩
        rw [visitsFor_append, fresh]
        cases deed <;> simp [visitsFor, ListDeed.mode, ListDeed.writes, ListDeed.takes]
      · exact congrArg (List.cons _) inside
  | refused fault g =>
      have visit : visit? l sys (.step i) = none :=
        visit?_kept_out found (by simp [hentry])
      refine .unseen visit advance (items_setGuard ..) rfl ?_
      exact .refused fault rfl inside nothing fresh
  | waits g =>
      have visit : visit? l sys (.step i) = none :=
        visit?_kept_out found (by simp [hentry])
      refine .unseen visit advance (items_setGuard ..) rfl ?_
      refine .gathering (.pure items) none sys.store ?_ rfl ?_ (.inr ⟨items, rfl⟩) inside nothing fresh
      · exact (ListDeed.onList_eq asks l offers).symm
      · exact fun _ heq => Except.ok.inj heq ▸ offers

theorem silent_entering (found : sys.tasks[i]? = some task) (takes : deed.takes)
    {lock : LockId} {mode : Mode} {next : Option BorrowFault → Action (List Value)}
    (program : task.phase.program = enter lock mode next >>= deed.onList l)
    (gathers : (enter lock mode next).Disciplined Aside Inert held)
    (gives : (enter lock mode next).wp looking
      (fun r p _ => ∀ items, r = .ok items → deed.Offers items p.trail) task.progress s)
    (inside : task.progress.inside = held.toList) (nothing : wrote l task.progress.trail = [])
    (fresh : visitsFor deed i history = []) : Silent l sys history i deed task := by
  have again := gathers
  obtain ⟨rfl, entered, refused⟩ := gathers
  obtain ⟨rfl, gives_entered, gives_refused⟩ := gives sys.store trivial trivial
  obtain ⟨entry, hentry, -, advance⟩ := advance_enter program sys.store
  cases entry with
  | entered g =>
      refine .of_advance (visit?_entered found program hentry) advance (items_setGuard ..) rfl ?_
      exact .gathering (next none) _ sys.store rfl entered gives_entered (.inl takes)
        (congrArg (List.cons (lock, Mode.read)) inside) nothing (visitsFor_reads fresh takes _ _)
  | refused fault g =>
      have visit : visit? l sys (.step i) = none :=
        visit?_kept_out found (by simp [hentry])
      refine .unseen visit advance (items_setGuard ..) rfl ?_
      exact .gathering (next (some fault)) none sys.store rfl (refused fault)
        (gives_refused trivial fault) (.inl takes) inside nothing fresh
  | waits g =>
      have visit : visit? l sys (.step i) = none :=
        visit?_kept_out found (by simp [hentry])
      refine .unseen visit advance (items_setGuard ..) rfl ?_
      exact .gathering _ none s rfl again gives (.inl takes) inside nothing fresh

theorem silent_gathering (found : sys.tasks[i]? = some task) (known : l.index < sys.store.lists.size)
    (asks : deed.asksGuard) (program : task.phase.program = g >>= deed.onList l)
    (gathers : g.Disciplined Aside Inert held)
    (gives : g.wp looking (fun r p _ => ∀ items, r = .ok items → deed.Offers items p.trail)
      task.progress s)
    (lazy : deed.takes ∨ ∃ items, g = .pure items)
    (inside : task.progress.inside = held.toList)
    (nothing : wrote l task.progress.trail = []) (fresh : visitsFor deed i history = []) :
    Silent l sys history i deed task := by
  cases g with
  | pure items =>
      obtain rfl : held = none := gathers
      exact silent_asking found asks program (gives items rfl) inside nothing fresh
  | fail fault =>
      exact silent_of_ended (r := .error fault) found program
        (.gathering (.fail fault) held s program gathers gives lazy inside nothing fresh)
  | act f next =>
      have visit : visit? l sys (.step i) = none :=
        visit?_none found (by simp [program])
      have items := congrArg GuardedList.items (spares_aside gathers.1 sys.store known).2
      refine .unseen visit (advance_act program sys.store) items (wrote_same items) ?_
      exact .gathering (next sys.store) held _ rfl (gathers.2.2 sys.store)
        (gives sys.store trivial trivial).2.2 (.inl (lazy.resolve_right (by simp))) inside
        ((wrote_same items).trans nothing) fresh
  | enter lock mode next =>
      exact silent_entering found (lazy.resolve_right (by simp)) program gathers gives inside nothing fresh
  | leave lock mode next =>
      obtain ⟨rfl, gathers⟩ := gathers
      have visit : visit? l sys (.step i) = none :=
        visit?_none found (by simp [program])
      refine .unseen visit (advance_leave program sys.store) (items_setGuard ..) rfl ?_
      refine .gathering next none s rfl gathers gives (.inl (lazy.resolve_right (by simp))) ?_ nothing fresh
      rw [Progress.inside_leave, inside]
      exact List.erase_cons_head ..
  | call request next =>
      obtain ⟨rfl, gathers⟩ := gathers
      have visit : visit? l sys (.step i) = none :=
        visit?_none found (by simp [program])
      refine .unseen visit (advance_call program sys.store) rfl rfl ?_
      exact .gathering next none s rfl gathers gives (.inl (lazy.resolve_right (by simp))) inside nothing
        fresh

end Gathering

/-! ## Steps in the guard -/

section Visiting

variable {items : List Value} {visit : Visit}

theorem items_effect (deed : ListDeed) (items : List Value) (known : l.index < sys.store.lists.size) :
    ((deed.effect l items sys.store).list l).items =
      (sys.store.list l).items ++ if deed.writes then items else [] := by
  rw [ListDeed.effect]
  split
  · rw [items_append_eq, if_pos ⟨rfl, known⟩]
  · exact (List.append_nil _).symm

theorem wrote_effect (deed : ListDeed) (items : List Value) (known : l.index < sys.store.lists.size)
    (nothing : wrote l task.progress.trail = []) :
    wrote l (task.progress.trail ++ [(sys.store, deed.effect l items sys.store)]) =
      if deed.writes then items else [] := by
  rw [wrote_note, nothing, items_effect deed items known, List.drop_left]
  rfl

theorem silent_leaving (found : sys.tasks[i]? = some task)
    (visited : Visited history i deed items visit task)
    (program : task.phase.program =
      .leave (.list l) deed.mode (Program.ofExcept (deed.answer visit.found)))
    (inside : task.progress.inside = [(.list l, deed.mode)])
    (put : wrote l task.progress.trail = if deed.writes then items else []) :
    Silent l sys history i deed task := by
  have unseen : visit? l sys (.step i) = none :=
    visit?_none found (by simp [program])
  refine .unseen unseen (advance_leave program sys.store) (items_setGuard ..) rfl ?_
  refine .ended items visit { visited with } rfl ?_ put
  rw [Progress.inside_leave, inside]
  exact List.erase_cons_head ..

end Visiting

/-! ## Steps of any call -/

theorem Apart.advance (h : Apart l task) {s : Store} (known : l.index < s.lists.size) :
    ((task.advance s).2.list l).items = (s.list l).items ∧
      wrote l (task.advance s).1.progress.trail = wrote l task.progress.trail := by
  obtain ⟨held, disciplined, -⟩ := h.disciplined
  cases program : task.phase.program with
  | pure v =>
      rw [Task.advance_of_outcome (outcome?_eq_some (r := .ok v) |>.mpr program)]
      exact ⟨rfl, rfl⟩
  | fail fault =>
      rw [Task.advance_of_outcome (outcome?_eq_some (r := .error fault) |>.mpr program)]
      exact ⟨rfl, rfl⟩
  | act f next =>
      rw [program] at disciplined
      rw [advance_act program]
      have items := congrArg GuardedList.items (disciplined.1 s known).2
      exact ⟨items, wrote_same items⟩
  | enter lock mode next =>
      obtain ⟨entry, -, -, advance⟩ := advance_enter program s
      rw [advance]
      cases entry <;> exact ⟨items_setGuard .., rfl⟩
  | leave lock mode next =>
      rw [advance_leave program]
      exact ⟨items_setGuard .., rfl⟩
  | call request next =>
      rw [advance_call program]
      exact ⟨rfl, rfl⟩

theorem Orderly.step_visiting (h : Orderly l first sys history) (found : sys.tasks[i]? = some task)
    (about : task.call.deed? l = some deed) {items : List Value} {visit : Visit}
    (visited : Visited history i deed items visit task)
    (program : task.phase.program = .act (deed.effect l items) fun s =>
      .leave (.list l) deed.mode (Program.ofExcept (deed.answer (s.list l).items)))
    (inside : task.progress.inside = [(.list l, deed.mode)])
    (same : visit.found = (sys.store.list l).items)
    (nothing : wrote l task.progress.trail = [])
    (newest : deed.writes → ∃ before, history = before ++ [visit]) :
    Orderly l first (sys.step i) (history ++ (visit? l sys (.step i)).toList) := by
  have unseen : visit? l sys (.step i) = none :=
    visit?_none found (by simp [program])
  have advance := advance_act program sys.store
  have wrote := wrote_effect deed items h.attended.known nothing
  have grown := items_effect deed items h.attended.known
  have leaving (now : List Value) : Stage l now history i deed (task.advance sys.store).1 := by
    rw [advance]
    refine .leaving items visit ⟨offers_append visited.offers _, visited.mode, visited.once⟩ ?_ inside
      wrote
    rw [same]
    rfl
  have staged (now : List Value) : Staged l now history i (task.advance sys.store).1 := by
    rw [Staged, Task.call_advance, about]
    exact leaving now
  rw [unseen, Option.toList, List.append_nil]
  by_cases writes : deed.writes
  · obtain ⟨before, hbefore⟩ := newest writes
    have mode : deed.mode = .write := if_pos writes
    rw [if_pos writes] at wrote grown
    exact h.adds found visited (visited.mode.trans mode) hbefore (by rw [inside, mode]; exact .head _)
      (by rw [advance]; exact grown) nothing (by rw [advance]; exact wrote) (staged _)
  · rw [if_neg writes] at wrote grown
    have quiet := h.quiet found (by rw [advance, grown, List.append_nil])
      (by rw [advance]; exact wrote.trans nothing.symm) (by simp [unseen])
      (by rw [unseen]; simpa using staged _)
    rwa [unseen, Option.toList, List.append_nil] at quiet

theorem Orderly.step (h : Orderly l first sys history) (i : Nat) :
    Orderly l first (sys.step i) (history ++ (visit? l sys (.step i)).toList) := by
  cases found : sys.tasks[i]? with
  | none =>
      have still : sys.step i = sys := by rw [System.step, found]
      have unseen : visit? l sys (.step i) = none := by rw [visit?, found]; rfl
      rw [still, unseen, Option.toList, List.append_nil]
      exact h
  | some task =>
      have staged := h.staged i task found
      rw [Staged] at staged
      split at staged
      · next deed about =>
          have asks := (Call.deed?_eq_some.mp about).2
          have silent (unwritten : ∀ v, visit? l sys (.step i) = some v → v.mode = .write →
              wrote l task.progress.trail = []) (silent : Silent l sys history i deed task) :
              Orderly l first (sys.step i) (history ++ (visit? l sys (.step i)).toList) := by
            refine h.quiet found silent.items silent.same unwritten ?_
            rw [Staged, Task.call_advance, about]
            exact silent.staged
          cases staged with
          | gathering g held s program gathers gives lazy inside nothing fresh =>
              exact silent (fun _ _ _ => nothing) (silent_gathering found h.attended.known asks
                program gathers gives lazy inside nothing fresh)
          | refused fault program inside nothing fresh =>
              exact silent (fun _ _ _ => nothing) (silent_of_ended (r := .error (.borrow fault)) found
                program (.refused fault program inside nothing fresh))
          | visiting items visit visited program inside same nothing newest =>
              exact h.step_visiting found about visited program inside same nothing newest
          | leaving items visit visited program inside put =>
              have unseen : visit? l sys (.step i) = none :=
                visit?_none found (by simp [program])
              exact silent (by simp [unseen])
                (silent_leaving found visited program inside put)
          | ended items visit visited program inside put =>
              exact silent (by simp [visit?_of_ended found program])
                (silent_of_ended found program (.ended items visit visited program inside put))
      · next about =>
          obtain ⟨items, same⟩ := staged.advance h.attended.known
          refine h.quiet found items same (fun _ _ _ => staged.nothing) ?_
          rw [Staged, Task.call_advance, about]
          exact ⟨staged.disciplined.advance _, same.trans staged.nothing⟩

end NinjaFile.History
