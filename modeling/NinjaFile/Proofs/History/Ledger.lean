import NinjaFile.Proofs.History.Stages

/-!
# The history of a shared list

Whatever threads do with a shared list, it is as if every call did what it does at the
moment at which it gets into the guard: what each of them finds there is what was in the
list at first and what the calls before it have written, one block after the other.
-/

namespace NinjaFile.History

open Program Store

variable {l : ListId}

/-! ## Stages -/

/-- What is known of a call when it has got into the guard of its list. -/
structure Visited (history : List Visit) (i : Nat) (deed : ListDeed) (items : List Value)
    (visit : Visit) (task : Task Call) : Prop where
  offers : deed.Offers items task.progress.trail
  mode : visit.mode = deed.mode
  once : visitsFor deed i history = [visit]

/-- How far a call on a list is, if the list holds `now`. -/
inductive Stage (l : ListId) (now : List Value) (history : List Visit) (i : Nat) (deed : ListDeed)
    (task : Task Call) : Prop where
  /-- Items are taken, or there is nothing to be taken and the guard is asked for. -/
  | gathering (g : Action (List Value)) (held : Option (LockId × Mode)) (s : Store)
      (program : task.phase.program = g >>= deed.onList l)
      (gathers : g.Disciplined Aside Inert held)
      (gives : g.wp looking (fun r p _ => ∀ items, r = .ok items → deed.Offers items p.trail)
        task.progress s)
      (lazy : deed.takes ∨ ∃ items, g = .pure items)
      (inside : task.progress.inside = held.toList)
      (nothing : wrote l task.progress.trail = [])
      (fresh : visitsFor deed i history = [])
  | refused (fault : BorrowFault)
      (program : task.phase.program = .fail (.borrow fault))
      (inside : task.progress.inside = [])
      (nothing : wrote l task.progress.trail = [])
      (fresh : visitsFor deed i history = [])
  | visiting (items : List Value) (visit : Visit)
      (visited : Visited history i deed items visit task)
      (program : task.phase.program = .act (deed.effect l items) fun s =>
        .leave (.list l) deed.mode (Program.ofExcept (deed.answer (s.list l).items)))
      (inside : task.progress.inside = [(.list l, deed.mode)])
      (found : visit.found = now)
      (nothing : wrote l task.progress.trail = [])
      (newest : deed.writes → ∃ before, history = before ++ [visit])
  | leaving (items : List Value) (visit : Visit)
      (visited : Visited history i deed items visit task)
      (program : task.phase.program =
        .leave (.list l) deed.mode (Program.ofExcept (deed.answer visit.found)))
      (inside : task.progress.inside = [(.list l, deed.mode)])
      (put : wrote l task.progress.trail = if deed.writes then items else [])
  | ended (items : List Value) (visit : Visit)
      (visited : Visited history i deed items visit task)
      (program : task.phase.program = Program.ofExcept (deed.answer visit.found))
      (inside : task.progress.inside = [])
      (put : wrote l task.progress.trail = if deed.writes then items else [])

/-- A call that leaves the list alone. -/
structure Apart (l : ListId) (task : Task Call) : Prop where
  disciplined : task.Disciplined (Spares l) fun _ => True
  nothing : wrote l task.progress.trail = []

/-- How far a call is, whatever it is about. -/
def Staged (l : ListId) (now : List Value) (history : List Visit) (i : Nat) (task : Task Call) :
    Prop :=
  match task.call.deed? l with
  | some deed => Stage l now history i deed task
  | none => Apart l task

section

variable {now now' : List Value} {history more : List Visit} {i : Nat} {deed : ListDeed}
  {task : Task Call}

theorem visitsFor_append (deed : ListDeed) (i : Nat) (history more : List Visit) :
    visitsFor deed i (history ++ more) = visitsFor deed i history ++ visitsFor deed i more :=
  List.filter_append ..

theorem mem_visitsFor {v : Visit} :
    v ∈ visitsFor deed i history ↔ v ∈ history ∧ v.task = i ∧ (v.mode = .write ∨ deed.takes = false) := by
  simp [visitsFor]

theorem visitsFor_others (others : ∀ v ∈ more, v.task ≠ i) :
    visitsFor deed i (history ++ more) = visitsFor deed i history := by
  have none : visitsFor deed i more = [] :=
    List.eq_nil_iff_forall_not_mem.mpr fun v hmem =>
      others v (mem_visitsFor.mp hmem).1 (mem_visitsFor.mp hmem).2.1
  rw [visitsFor_append, none, List.append_nil]

namespace Visited

variable {items : List Value} {visit : Visit}

theorem others (h : Visited history i deed items visit task) (others : ∀ v ∈ more, v.task ≠ i) :
    Visited (history ++ more) i deed items visit task :=
  { h with once := (visitsFor_others others).trans h.once }

theorem mem (h : Visited history i deed items visit task) : visit ∈ history ∧ visit.task = i := by
  have own : visit ∈ visitsFor deed i history := by
    rw [h.once]
    exact .head _
  exact ⟨(mem_visitsFor.mp own).1, (mem_visitsFor.mp own).2.1⟩

theorem eq_of_write (h : Visited history i deed items visit task) {v : Visit} (hmem : v ∈ history)
    (own : v.task = i) (writes : v.mode = .write) : v = visit := by
  have : v ∈ visitsFor deed i history := mem_visitsFor.mpr ⟨hmem, own, .inl writes⟩
  rw [h.once] at this
  exact List.mem_singleton.mp this

theorem writes (h : Visited history i deed items visit task) (mode : visit.mode = .write) :
    deed.writes := by
  rw [h.mode, ListDeed.mode] at mode
  split at mode
  · assumption
  · cases mode

/-- If the call has come last, then it has not come to write before. -/
theorem reads_of_newest {before : List Visit} (h : Visited (before ++ [visit]) i deed items visit task)
    (writes : visit.mode = .write) {v : Visit} (hmem : v ∈ before) (own : v.task = i) :
    v.mode = .read := by
  have last : visitsFor deed i [visit] = [visit] := by
    simp [visitsFor, h.mem.2, writes]
  have once := h.once
  rw [visitsFor_append, last] at once
  have none : visitsFor deed i before = [] := List.append_left_eq_self.mp once
  cases hmode : v.mode with
  | read => rfl
  | write =>
      have : v ∈ visitsFor deed i before := mem_visitsFor.mpr ⟨hmem, own, .inl hmode⟩
      rw [none] at this
      cases this

end Visited

/-- What others do does not matter to a call, as long as nobody writes where it looks, and
nobody looks where it writes. -/
theorem Stage.others (h : Stage l now history i deed task) (others : ∀ v ∈ more, v.task ≠ i)
    (same : (.list l, deed.mode) ∈ task.progress.inside → now' = now ∧ (deed.writes → more = [])) :
    Stage l now' (history ++ more) i deed task := by
  cases h with
  | gathering g held s program gathers gives lazy inside nothing h =>
      exact .gathering g held s program gathers gives lazy inside nothing
        ((visitsFor_others others).trans h)
  | refused fault program inside nothing h =>
      exact .refused fault program inside nothing ((visitsFor_others others).trans h)
  | visiting items visit visited program inside found nothing newest =>
      obtain ⟨rfl, none_more⟩ := same (by rw [inside]; exact .head _)
      refine .visiting items visit (visited.others others) program inside found nothing fun writes => ?_
      rw [none_more writes, List.append_nil]
      exact newest writes
  | leaving items visit visited program inside put =>
      exact .leaving items visit (visited.others others) program inside put
  | ended items visit visited program inside put =>
      exact .ended items visit (visited.others others) program inside put

end

/-! ## The ledger -/

/-- What has been written by the call of a visit so far, if it is there to write. -/
def put (l : ListId) (sys : System Call) (v : Visit) : List Value :=
  match v.mode with
  | .write => wrote l (sys.trail v.task)
  | .read => []

/-- The list holds what was there at first and what has been written, in the order of the
visits, and this is also what each visitor has found. -/
structure Orderly (l : ListId) (first : List Value) (sys : System Call) (history : List Visit) :
    Prop where
  attended : Attended l sys
  items : (sys.store.list l).items = first ++ history.flatMap (put l sys)
  found : ∀ before v after, history = before ++ v :: after →
    v.found = first ++ before.flatMap (put l sys)
  known : ∀ v ∈ history, v.task < sys.tasks.length
  staged : ∀ i task, sys.tasks[i]? = some task →
    Staged l (sys.store.list l).items history i task

/-- A place in a list that has got one more item is a place in the list before, or it is
the new one. -/
theorem append_singleton_eq {α : Type} {list before after : List α} {a b : α}
    (h : list ++ [a] = before ++ b :: after) :
    (∃ rest, list = before ++ b :: rest) ∨ list = before ∧ a = b := by
  obtain ⟨more, hbefore, hmore⟩ | ⟨more, hlist, hmore⟩ := List.append_eq_append_iff.mp h
  · cases more with
    | nil => exact .inr ⟨by simpa using hbefore.symm, (List.cons.inj hmore).1⟩
    | cons c rest => simp at hmore
  · cases more with
    | nil => exact .inr ⟨by simpa using hlist, (List.cons.inj hmore).1.symm⟩
    | cons c rest =>
        obtain ⟨rfl, -⟩ := List.cons.inj hmore
        exact .inl ⟨rest, hlist⟩

section

variable {first : List Value} {sys : System Call} {history : List Visit} {i : Nat}
  {task : Task Call}

theorem visit?_step (found : sys.tasks[i]? = some task) :
    visit? l sys (.step i) = (entered? task sys.store).bind fun c =>
      if c.1 = .list l then some ⟨i, c.2, (sys.store.list l).items⟩ else none := by
  rw [visit?, found]
  rfl

theorem inside_of_visit {v : Visit} (found : sys.tasks[i]? = some task)
    (h : visit? l sys (.step i) = some v) :
    v.task = i ∧ v.found = (sys.store.list l).items ∧
      (.list l, v.mode) ∈ (task.advance sys.store).1.progress.inside := by
  rw [visit?_step found, Option.bind_eq_some_iff] at h
  obtain ⟨⟨lock, mode⟩, entered, hv⟩ := h
  split at hv
  · next heq =>
      obtain rfl : lock = .list l := heq
      cases hv
      refine ⟨rfl, rfl, ?_⟩
      rw [entered?] at entered
      split at entered
      · next program entry =>
          cases entered
          obtain ⟨answer, hanswer, -, heq⟩ := advance_enter program sys.store
          rw [entry] at hanswer
          cases hanswer
          rw [heq]
          exact .head _
      · cases entered
  · cases hv

theorem length_step (sys : System Call) (i : Nat) : (sys.step i).tasks.length = sys.tasks.length := by
  rw [System.step]
  split
  · rfl
  · exact List.length_set

/-- What a step leads to is right for all calls, if it is so for the call that makes it, and if
the others do not look at the list while it changes. -/
theorem Orderly.staged_step (h : Orderly l first sys history) (found : sys.tasks[i]? = some task)
    {now : List Value} {more : List Visit} (visits : ∀ v ∈ more, v.task = i)
    (mover : Staged l now (history ++ more) i (task.advance sys.store).1)
    (others : ∀ j other, j ≠ i → sys.tasks[j]? = some other → ∀ deed : ListDeed,
      (.list l, deed.mode) ∈ other.progress.inside →
        now = (sys.store.list l).items ∧ (deed.writes → more = [])) :
    ∀ j other, (sys.step i).tasks[j]? = some other → Staged l now (history ++ more) j other := by
  intro j other hother
  rw [System.task_step found] at hother
  split at hother
  · next heq =>
      subst heq
      cases hother
      exact mover
  · next ne =>
      have old := h.staged j other hother
      rw [Staged] at old ⊢
      split at old
      · next deed hdeed =>
          exact old.others (fun v hmem => visits v hmem ▸ Ne.symm ne) (others j other ne hother deed)
      · exact old

/-- Nobody gets in where another one writes. -/
theorem Orderly.visit?_eq_none (h : Orderly l first sys history) (found : sys.tasks[i]? = some task)
    {j : Nat} {other : Task Call} (ne : j ≠ i) (there : sys.tasks[j]? = some other)
    (writes : (.list l, .write) ∈ other.progress.inside) : visit? l sys (.step i) = none := by
  rw [Option.eq_none_iff_forall_not_mem]
  intro v entered
  have own : (sys.step i).tasks[i]? = some (task.advance sys.store).1 := by
    rw [System.task_step found, if_pos rfl]
  have still : (sys.step i).tasks[j]? = some other := by rw [System.task_step found, if_neg ne, there]
  exact ne ((h.attended.step i).alone still own writes (inside_of_visit found entered).2.2)

/-- A step that neither writes to the list nor changes what the call has written. -/
theorem Orderly.quiet (h : Orderly l first sys history) (found : sys.tasks[i]? = some task)
    (items : ((task.advance sys.store).2.list l).items = (sys.store.list l).items)
    (same : wrote l (task.advance sys.store).1.progress.trail = wrote l task.progress.trail)
    (unwritten : ∀ v, visit? l sys (.step i) = some v → v.mode = .write →
      wrote l task.progress.trail = [])
    (staged : Staged l (sys.store.list l).items (history ++ (visit? l sys (.step i)).toList) i
      (task.advance sys.store).1) :
    Orderly l first (sys.step i) (history ++ (visit? l sys (.step i)).toList) := by
  have puts : put l (sys.step i) = put l sys := by
    funext v
    rw [put, put, System.trail_step found]
    split
    · split
      · next heq => rw [heq, System.trail_of_task found, same]
      · rfl
    · rfl
  have new (v : Visit) (hv : visit? l sys (.step i) = some v) : put l sys v = [] := by
    obtain ⟨rfl, -, -⟩ := inside_of_visit found hv
    rw [put]
    cases hmode : v.mode with
    | read => rfl
    | write =>
        dsimp only
        rw [System.trail_of_task found]
        exact unwritten v hv hmode
  have store : (sys.step i).store = (task.advance sys.store).2 := System.store_step found
  have visits (v : Visit) (hmem : v ∈ (visit? l sys (.step i)).toList) : v.task = i :=
    (inside_of_visit found (Option.mem_toList.mp hmem)).1
  refine ⟨h.attended.step i, ?_, fun before v after hsplit => ?_, fun v hmem => ?_, ?_⟩
  · rw [store, items, h.items, puts, List.flatMap_append]
    cases hv : visit? l sys (.step i) with
    | none => simp
    | some v => simp [new v hv]
  · rw [puts]
    cases hv : visit? l sys (.step i) with
    | none =>
        rw [hv] at hsplit
        exact h.found before v after (by simpa using hsplit)
    | some w =>
        rw [hv] at hsplit
        obtain ⟨rest, hold⟩ | ⟨rfl, rfl⟩ := append_singleton_eq hsplit
        · exact h.found before v rest hold
        · rw [(inside_of_visit found hv).2.1, h.items]
  · rw [length_step]
    obtain hmem | hmem := List.mem_append.mp hmem
    · exact h.known v hmem
    · rw [visits v hmem]
      exact (List.getElem?_eq_some_iff.mp found).1
  · rw [store, items]
    refine h.staged_step found visits staged fun j other ne there deed inside => ⟨rfl, fun writes => ?_⟩
    rw [ListDeed.mode, if_pos writes] at inside
    rw [h.visit?_eq_none found ne there inside]
    rfl

/-- A call that writes to the list. -/
theorem Orderly.adds (h : Orderly l first sys history) (found : sys.tasks[i]? = some task)
    {more : List Value} {before : List Visit} {visit : Visit}
    {deed : ListDeed} {offered : List Value} (visited : Visited history i deed offered visit task)
    (mode : visit.mode = .write) (newest : history = before ++ [visit])
    (writes : (.list l, .write) ∈ task.progress.inside)
    (items : ((task.advance sys.store).2.list l).items = (sys.store.list l).items ++ more)
    (nothing : wrote l task.progress.trail = [])
    (wrote : wrote l (task.advance sys.store).1.progress.trail = more)
    (staged : Staged l ((task.advance sys.store).2.list l).items history i
      (task.advance sys.store).1) :
    Orderly l first (sys.step i) history := by
  have store : (sys.step i).store = (task.advance sys.store).2 := System.store_step found
  -- The call has come to write this once.
  have earlier : ∀ v ∈ before, v.task = i → v.mode = .read := by
    subst newest
    exact fun v => visited.reads_of_newest mode
  have puts : ∀ v ∈ before, put l (sys.step i) v = put l sys v := by
    intro v hmem
    rw [put, put, System.trail_step found]
    split
    · next hwrite =>
        split
        · next heq =>
            have reads := earlier v hmem heq
            rw [hwrite] at reads
            cases reads
        · rfl
    · rfl
  have last : put l sys visit = [] ∧ put l (sys.step i) visit = more := by
    rw [put, put, mode, visited.mem.2]
    dsimp only
    rw [System.trail_step found, if_pos rfl, System.trail_of_task found]
    exact ⟨nothing, wrote⟩
  have same : before.flatMap (put l (sys.step i)) = before.flatMap (put l sys) :=
    List.flatMap_congr puts
  refine ⟨h.attended.step i, ?_, fun before' v after hsplit => ?_, fun v hmem => ?_, ?_⟩
  · rw [store, items, h.items, newest, List.flatMap_append, List.flatMap_append, same]
    simp [last.1, last.2]
  · have part : before' <+: before := by
      rw [newest] at hsplit
      obtain ⟨rest, hold⟩ | ⟨rfl, -⟩ := append_singleton_eq hsplit
      · exact ⟨v :: rest, hold.symm⟩
      · exact List.prefix_rfl
    rw [h.found before' v after hsplit]
    exact congrArg _ (List.flatMap_congr fun w hmem => (puts w (part.subset hmem)).symm)
  · rw [length_step]
    exact h.known v hmem
  · rw [store, ← List.append_nil history]
    exact h.staged_step found (by simp) (by rwa [List.append_nil]) fun j other ne hother deed inside =>
      absurd (h.attended.alone found hother writes inside) (Ne.symm ne)

theorem Orderly.start (h : Orderly l first sys history) (t : ThreadId) (c : Call) :
    Orderly l first (sys.start t c c.program) history := by
  have trails (v : Visit) : put l (sys.start t c c.program) v = put l sys v := by
    rw [put, put, System.trail_start]
  have puts : put l (sys.start t c c.program) = put l sys := funext trails
  constructor
  · exact h.attended.start t c c.minds
  · rw [puts]
    exact h.items
  · rw [puts]
    exact h.found
  · intro v hmem
    exact Nat.lt_of_lt_of_le (h.known v hmem) (by simp [System.start])
  · intro i task found
    rw [System.start, List.getElem?_append] at found
    split at found
    · exact h.staged i task found
    · next new =>
        obtain rfl := List.mem_singleton.mp (List.mem_of_getElem? found)
        have unknown : ∀ v ∈ history, v.task ≠ i := fun v hmem heq =>
          new (heq ▸ h.known v hmem)
        rw [Staged]
        split
        · next deed hdeed =>
            obtain ⟨rfl, -⟩ := Call.deed?_eq_some.mp hdeed
            refine .gathering deed.offer none sys.store rfl deed.gathers_offer
              (wp_offer deed sys.store) ?_ rfl rfl ?_
            · cases deed with
              | extend v => exact .inl rfl
              | _ => exact .inr ⟨_, rfl⟩
            · exact List.eq_nil_iff_forall_not_mem.mpr fun v hmem =>
                unknown v (mem_visitsFor.mp hmem).1 (mem_visitsFor.mp hmem).2.1
        · next hdeed => exact ⟨Task.disciplined_start (Call.spares hdeed) t c, rfl⟩

end

end NinjaFile.History
