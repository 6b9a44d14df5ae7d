import NinjaFile.Proofs.History.Steps

/-!
# Runs of calls on a shared list

Whatever threads do with a shared list, it is as if every call did what it does at the
moment at which it gets into the guard: what each of them finds there is what was in the
list at first and what the calls before it have written, one block after the other.
-/

namespace NinjaFile.History

open Program Store

variable {l : ListId} {first : List Value} {sys : System Call} {history : List Visit}

/-! ## Ledgers of runs -/

theorem orderly_idle {s₀ : Store} (known : l.index < s₀.lists.size) {blocking : Bool}
    (made : s₀.list l = .make .shared blocking first) : Orderly l first (idle s₀) [] where
  attended :=
    { known
      disciplined := by simp [idle]
      faithful := ⟨.free blocking, congrArg GuardedList.guard made, Lock.Usage.faithful_free blocking⟩ }
  items := (congrArg GuardedList.items made).trans (List.append_nil _).symm
  found before v after h := by
    have := congrArg List.length h
    simp at this
  known := by simp
  staged i task found := by cases found

theorem Orderly.next (h : Orderly l first sys history) (move : Move) :
    Orderly l first (next sys move) (history ++ (visit? l sys move).toList) := by
  cases move with
  | start t c =>
      rw [visit?, Option.toList, List.append_nil]
      exact h.start t c
  | step i => exact h.step i

theorem Orderly.run (h : Orderly l first sys history) (moves : List Move) :
    Orderly l first (run sys moves) (history ++ visits l sys moves) := by
  induction moves generalizing sys history with
  | nil =>
      rw [visits, List.append_nil]
      exact h
  | cons move rest ih =>
      rw [visits, ← List.append_assoc]
      exact ih (h.next move)

/-! ## Blocks -/

theorem Call.block_eq_nil {c : Call} (h : c.deed? l = none) (trail : List (Store × Store)) :
    c.block l trail = [] := by
  cases c with
  | hold lock mode outcome => rfl
  | use l' deed =>
      cases deed with
      | add | extend =>
          refine if_neg fun same => ?_
          rw [deed?, if_pos ⟨same, rfl⟩] at h
          cases h
      | _ => rfl

theorem block_eq_of_offers {deed : ListDeed} {items : List Value} {trail : List (Store × Store)}
    (h : deed.Offers items trail) (writes : deed.writes) :
    (Call.use l deed).block l trail = items := by
  cases deed with
  | add v => exact (if_pos rfl).trans (Eq.symm h)
  | extend v =>
      refine (if_pos rfl).trans ?_
      rw [show taken v trail = some items from h]
      rfl
  | _ => cases writes

/-- What a call has written to the list, unless it is just about to write: others have come
after it, or it is not in the guard to write. -/
theorem Orderly.put_eq_block (h : Orderly l first sys history) {v : Visit} (hmem : v ∈ history)
    (settled : (∃ before w after, history = before ++ w :: after ∧ v ∈ before) ∨
      ∀ task, sys.tasks[v.task]? = some task → (.list l, .write) ∉ task.progress.inside) :
    put l sys v = block l sys v := by
  have known := h.known v hmem
  have found : sys.tasks[v.task]? = some sys.tasks[v.task] := List.getElem?_eq_getElem known
  rw [put, block, found]
  cases mode : v.mode with
  | read => rfl
  | write =>
      dsimp only
      rw [System.trail_of_task found]
      have staged := h.staged _ _ found
      rw [Staged] at staged
      split at staged
      · next deed about =>
          obtain ⟨call, -⟩ := Call.deed?_eq_some.mp about
          have unvisited : visitsFor deed v.task history ≠ [] :=
            List.ne_nil_of_mem (mem_visitsFor.mpr ⟨hmem, rfl, .inl mode⟩)
          rw [call]
          cases staged with
          | gathering _ _ _ _ _ _ _ _ _ fresh => exact absurd fresh unvisited
          | refused _ _ _ _ fresh => exact absurd fresh unvisited
          | visiting items visit visited _ inside _ _ newest =>
              obtain rfl := visited.eq_of_write hmem rfl mode
              have writes := visited.writes mode
              obtain ⟨all, rfl⟩ := newest writes
              obtain ⟨before, w, after, hsplit, earlier⟩ | outside := settled
              · have : v ∈ all := by
                  obtain ⟨rest, rfl⟩ | ⟨rfl, -⟩ := append_singleton_eq hsplit
                  · exact List.mem_append_left _ earlier
                  · exact earlier
                have reads := visited.reads_of_newest mode this rfl
                rw [mode] at reads
                cases reads
              · refine absurd ?_ (outside _ found)
                rw [inside, ListDeed.mode, if_pos writes]
                exact .head _
          | leaving items visit visited _ _ put | ended items visit visited _ _ put =>
              obtain rfl := visited.eq_of_write hmem rfl mode
              have writes := visited.writes mode
              rw [put, if_pos writes, block_eq_of_offers visited.offers writes]
      · next about =>
          rw [staged.nothing, Call.block_eq_nil about]

/-! ## Ends -/

/-- How a call on a list has ended, if the list now holds `contents`. -/
inductive Ending (contents : List Value) (history : List Visit) (i : Nat) (deed : ListDeed)
    (trail : List (Store × Store)) : Except Fault Value → Prop where
  /-- The call has got into the guard once for its deed.  It answers for what it has found
  there, and right behind that the list holds what the call had to write, so that an item
  that has been added stands at the index that was answered. -/
  | visited (visit : Visit) (items : List Value) (once : visitsFor deed i history = [visit])
      (mode : visit.mode = deed.mode) (offers : deed.Offers items trail)
      (there : items <+: contents.drop visit.found.length) :
      Ending contents history i deed trail (deed.answer visit.found)
  /-- The call has never got in for its deed: it has been refused, or it has failed to take
  the items. -/
  | failed (fault : Fault) (never : visitsFor deed i history = [])
      (why : deed.takes ∨ ∃ refusal, fault = .borrow refusal) :
      Ending contents history i deed trail (.error fault)

theorem put_of_ended {i : Nat} {task : Task Call} {deed : ListDeed} {items : List Value}
    {visit : Visit} (found : sys.tasks[i]? = some task)
    (visited : Visited history i deed items visit task)
    (written : wrote l task.progress.trail = if deed.writes then items else []) :
    put l sys visit = items := by
  rw [put, visited.mode, ListDeed.mode, visited.mem.2, System.trail_of_task found]
  split at written
  · next writes => rw [if_pos writes, written]
  · next reads =>
      rw [if_neg reads]
      have offers := visited.offers
      cases deed with
      | add | extend => exact absurd rfl reads
      | _ => exact Eq.symm offers

theorem Orderly.there (h : Orderly l first sys history) {visit : Visit} (hmem : visit ∈ history) :
    put l sys visit <+: (sys.store.list l).items.drop visit.found.length := by
  obtain ⟨before, after, hsplit⟩ := List.append_of_mem hmem
  rw [h.items, h.found before visit after hsplit, hsplit, List.flatMap_append, ← List.append_assoc,
    List.drop_left, List.flatMap_cons]
  exact List.prefix_append ..

theorem Orderly.ending (h : Orderly l first sys history) {i : Nat} {task : Task Call}
    {deed : ListDeed} {r : Except Fault Value} (found : sys.tasks[i]? = some task)
    (about : task.call.deed? l = some deed) (ended : task.outcome? = some r) :
    Ending (sys.store.list l).items history i deed task.progress.trail r := by
  have asks := (Call.deed?_eq_some.mp about).2
  have staged := h.staged i task found
  rw [Staged, about] at staged
  have last := outcome?_eq_some.mp ended
  cases staged with
  | gathering g held s program gathers gives lazy inside nothing fresh =>
      cases g with
      | pure items =>
          have asking := program.trans (ListDeed.onList_eq asks l (gives items rfl))
          cases r <;> simp [asking, Program.ofExcept] at last
      | fail fault =>
          obtain rfl := Option.some.inj (ended.symm.trans (outcome?_eq_some (r := .error _) |>.mpr program))
          exact .failed fault fresh (.inl (lazy.resolve_right (by simp)))
      | act | enter | leave | call => cases r <;> simp [program, Program.ofExcept] at last
  | refused fault program _ _ fresh =>
      obtain rfl := Option.some.inj (ended.symm.trans (outcome?_eq_some (r := .error _) |>.mpr program))
      exact .failed _ fresh (.inr ⟨fault, rfl⟩)
  | visiting _ _ _ program => cases r <;> simp [program, Program.ofExcept] at last
  | leaving _ _ _ program => cases r <;> simp [program, Program.ofExcept] at last
  | ended items visit visited program inside written =>
      obtain rfl := Option.some.inj (ended.symm.trans (outcome?_eq_some.mpr program))
      refine .visited visit items visited.once visited.mode visited.offers ?_
      rw [← put_of_ended found visited written]
      exact h.there visited.mem.1

/-! ## Runs -/

/-- The list has come about by calls that each do all they do to it at once. -/
structure Linear (l : ListId) (first : List Value) (sys : System Call) (history : List Visit) :
    Prop where
  /-- Who visits the list finds the blocks of those who have visited it before. -/
  found : ∀ before v after, history = before ++ v :: after →
    v.found = first ++ before.flatMap (block l sys)
  /-- While nobody is writing, the list holds the blocks of all who have visited it. -/
  contents : (∀ task ∈ sys.tasks, (.list l, .write) ∉ task.progress.inside) →
    (sys.store.list l).items = first ++ history.flatMap (block l sys)
  /-- No call visits the list twice for its deed. -/
  once : ∀ i task deed, sys.tasks[i]? = some task → task.call = .use l deed → deed.asksGuard →
    (visitsFor deed i history).length ≤ 1
  endings : ∀ i task deed r, sys.tasks[i]? = some task → task.call = .use l deed →
    deed.asksGuard → task.outcome? = some r →
    Ending (sys.store.list l).items history i deed task.progress.trail r

theorem Orderly.linear (h : Orderly l first sys history) : Linear l first sys history where
  found before v after hsplit := by
    rw [h.found before v after hsplit]
    refine congrArg _ (List.flatMap_congr fun w earlier => ?_)
    exact h.put_eq_block (hsplit ▸ List.mem_append_left _ earlier) (.inl ⟨before, v, after, hsplit, earlier⟩)
  contents quiet := by
    rw [h.items]
    refine congrArg _ (List.flatMap_congr fun v hmem => ?_)
    exact h.put_eq_block hmem (.inr fun task found => quiet task (List.mem_of_getElem? found))
  once i task deed found call asks := by
    have staged := h.staged i task found
    rw [Staged, Call.deed?_eq_some.mpr ⟨call, asks⟩] at staged
    cases staged with
    | gathering _ _ _ _ _ _ _ _ _ fresh | refused _ _ _ _ fresh => simp [fresh]
    | visiting _ _ visited | leaving _ _ visited | ended _ _ visited => simp [visited.once]
  endings i task deed r found call asks ended :=
    h.ending found (Call.deed?_eq_some.mpr ⟨call, asks⟩) ended

/-- Whatever calls on a shared list and holds of guards are begun in whatever threads, and in
whatever order they go on, step by step: the list has come about by calls that each do all
they do to it at once, when they get into its guard. -/
theorem run_linear (s₀ : Store) (l : ListId) (first : List Value) (blocking : Bool)
    (known : l.index < s₀.lists.size) (made : s₀.list l = .make .shared blocking first)
    (moves : List Move) :
    Linear l first (run (idle s₀) moves) (visits l (idle s₀) moves) :=
  ((orderly_idle known made).run moves).linear

/-- A list with one item, which threads may share. -/
def shared : Store := ((Store.ofFiles ⟨[], []⟩).insertList (.make .shared true [.text "x"])).2

/-- A list is extended with itself.  While it is looked at, another thread waits to add an
item and then gets in first, and a third one looks at the list between the two. -/
def itself : List Move :=
  .start 1 (.use ⟨0⟩ (.extend (.object (.list ⟨0⟩)))) :: .step 0 ::
    .start 2 (.use ⟨0⟩ (.add (.text "a"))) :: .step 1 :: .step 0 :: .step 0 ::
      .step 1 :: .step 0 :: .step 1 :: .step 1 ::
        .start 3 (.use ⟨0⟩ .snapshot) :: .step 2 :: .step 0 :: .step 2 :: .step 2 ::
          .step 0 :: .step 0 :: .step 0 :: []

theorem run_linear_itself :
    let sys := run (idle shared) itself
    let history := visits ⟨0⟩ (idle shared) itself
    (0 < shared.lists.size ∧ shared.list ⟨0⟩ = .make .shared true [.text "x"]) ∧
      Linear ⟨0⟩ [.text "x"] sys history ∧
      history = [⟨0, .read, [.text "x"]⟩, ⟨1, .write, [.text "x"]⟩,
        ⟨2, .read, [.text "x", .text "a"]⟩, ⟨0, .write, [.text "x", .text "a"]⟩] ∧
      history.flatMap (block ⟨0⟩ sys) = [.text "a", .text "x"] ∧
      (sys.store.list ⟨0⟩).items = [.text "x", .text "a", .text "x"] ∧
      sys.tasks.map Task.outcome? = [some (.ok .null), some (.ok (.int 1)),
        some (.ok (.tuple [.text "x", .text "a"]))] := by
  intro sys history
  exact ⟨⟨by decide, rfl⟩, run_linear shared ⟨0⟩ [.text "x"] true (by decide) rfl itself,
    rfl, rfl, rfl, rfl⟩

end NinjaFile.History
