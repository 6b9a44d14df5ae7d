import NinjaFile.Proofs.Frame.Runs
import NinjaFile.Proofs.Overlap.Calls
import NinjaFile.Proofs.Sharing.Guards

/-!
# Runs in which threads take turns

Threads make calls and go on with them as scripts have it: only one of them is about at a time,
until it has ended, has to wait or has a source ended, and a thread that only looks at things,
holds a list or renders can be interrupted anywhere.  In such a run the kept statements lose
nothing, whatever is appended and attached.
-/

namespace NinjaFile.Overlap

open Store Program
open Housing (Call Good Agreed)
open Sharing (MadeNode madeNode_append)

/-! ## Moves -/

/-- Others can come in here: the call has ended, waits or has a source ended, or it changes
nothing. -/
def GivesWay (task : Task Call) : Prop :=
  (∃ p, task.call = .look p) ∨
    match task.phase with
    | .running (.act ..) | .running (.enter ..) | .running (.leave ..) => False
    | _ => True

/-- Whether others can come in. -/
def givesWay (task : Task Call) : Bool :=
  match task.call, task.phase with
  | .look _, _ => true
  | _, .running (.act ..) | _, .running (.enter ..) | _, .running (.leave ..) => false
  | _, _ => true

theorem givesWay_iff (task : Task Call) : givesWay task = true ↔ GivesWay task := by
  obtain ⟨t, call, phase, progress⟩ := task
  cases call with
  | look p => exact ⟨fun _ => .inl ⟨p, rfl⟩, fun _ => rfl⟩
  | _ =>
      cases phase with
      | waiting => simp [givesWay, GivesWay]
      | running p => cases p <;> simp [givesWay, GivesWay]

instance : DecidablePred GivesWay := fun task => decidable_of_iff _ (givesWay_iff task)

inductive Move where
  | start (t : ThreadId) (request : Call)
  | step (i : Nat)

def next (sys : System Call) : Move → System Call
  | .start t request => sys.start t request request.program
  | .step i => sys.step i

/-- A call can be made, or go on, while all the others give way. -/
def Allowed (sys : System Call) : Move → Prop
  | .start _ request =>
      Plain request ∧ request.Fits sys.store ∧ ∀ task ∈ sys.tasks, GivesWay task
  | .step i => ∀ (j : Nat) (task : Task Call), sys.tasks[j]? = some task → j ≠ i → GivesWay task

theorem allowed_step {sys : System Call} {i : Nat} (h : ∀ task ∈ sys.tasks.eraseIdx i, GivesWay task) :
    Allowed sys (.step i) := by
  refine fun j task found hne => h task ?_
  exact List.mem_eraseIdx_iff_getElem?.mpr ⟨j, hne, found⟩

/-- A call brings the statement to one owner: it names it, or makes it. -/
def Lost (sys : System Call) (n : Node) : Prop :=
  ∃ task ∈ sys.tasks, Singles sys.store task.call ∧
    (Names n task.call ∨ MadeNode task.progress.trail n)

/-! ## What is left of calls -/

variable {kept : Node → Prop} {c : Setting} {task : Task Call} {s s' : Store} {sys : System Call}

/-- What is left of a call does nothing but fair steps, and the call returns when it has done
what it is for. -/
def Remains (c : Setting) (task : Task Call) (s : Store) : Prop :=
  match task.phase with
  | .running p => Behaves c (Returns task.call) p task.progress.trail s
  | .waiting _ _ next => ∀ s', Gentle c.kept s s' →
      ∀ r, Behaves c (Returns task.call) (next r) task.progress.trail s'

theorem Remains.outcome (h : Remains c task s) {r : Except Fault Value}
    (ended : task.outcome? = some r) : Returns task.call r task.progress.trail s := by
  obtain ⟨t, call, phase, progress⟩ := task
  cases phase with
  | waiting lock mode next => cases ended
  | running p => cases p <;> cases ended <;> exact h

/-- A call that gives way can go on from where others have left the store. -/
theorem Remains.later (h : Remains c task s) (way : GivesWay task)
    (acts : ∀ p, task.call ≠ .look p) (gentle : Gentle c.kept s s') : Remains c task s' := by
  have way := way.resolve_left fun ⟨p, hp⟩ => acts p hp
  obtain ⟨t, call, phase, progress⟩ := task
  cases phase with
  | waiting lock mode next => exact fun s'' more => h s'' (gentle.trans more)
  | running p =>
      cases p with
      | pure | fail => exact h
      | call request next => exact fun s'' more => h s'' (gentle.trans more)
      | act | enter | leave => exact way.elim

theorem neat_asks (neat : Neat kept s) {lock : LockId} {t : ThreadId} {mode : Mode}
    {entry : Entry Guard} (asks : (s.guard lock).Asks t mode entry) :
    Neat kept (s.setGuard lock entry.guard) :=
  neat.setGuard lock (Guard.kind_asks asks).1

theorem store_receive (task : Task Call) (s : Store) (lock : LockId) (mode : Mode)
    (next : Option BorrowFault → Action Value) (entry : Entry Guard) :
    (task.receive s lock mode next entry).2 = s.setGuard lock entry.guard := by
  cases entry <;> rfl

theorem isLocking_of_waits {g g' : Guard} {t : ThreadId} {mode : Mode} {entry : Entry Guard}
    (asks : g.Asks t mode entry) (waits : entry = .waits g') : g.isLocking = true := by
  cases g with
  | locking lock => rfl
  | cooperative writing => cases asks <;> cases writing <;> cases mode <;> cases waits

theorem Remains.receive {lock : LockId} {mode : Mode} {next : Option BorrowFault → Action Value}
    {entry : Entry Guard}
    (goes : ∀ s', s.Alike s' → ∀ r, Behaves c (Returns task.call) (next r) task.progress.trail s')
    (waits : ∀ g, entry = .waits g → ∀ s', Gentle c.kept s s' →
      ∀ r, Behaves c (Returns task.call) (next r) task.progress.trail s') :
    Remains c (task.receive s lock mode next entry).1 (task.receive s lock mode next entry).2 := by
  have like (g : Guard) := Alike.setGuard s lock g
  cases entry with
  | entered g => exact goes _ (like g) none
  | refused fault g => exact goes _ (like g) (some fault)
  | waits g => exact fun s' gentle => waits g rfl s' ((Gentle.of_alike (like g)).trans gentle)

/-- One step of a call is fair, and so is what is left of it. -/
theorem Remains.advance (h : Remains c task s) (good : Good task.progress.trail s)
    (good' : Good (task.advance s).1.progress.trail (task.advance s).2) (neat : Neat c.kept s)
    (given : c.given (task.advance s).1.progress.trail) :
    Remains c (task.advance s).1 (task.advance s).2 ∧ Gentle c.kept s (task.advance s).2 ∧
      Neat c.kept (task.advance s).2 := by
  obtain ⟨t, call, phase, progress⟩ := task
  have guarded (lock : LockId) (g : Guard) : Gentle c.kept s (s.setGuard lock g) :=
    .of_alike (.setGuard s lock g)
  cases phase with
  | waiting lock mode next =>
      have asks : (s.guard lock).Asks t mode ((s.guard lock).recheck t mode) := .recheck
      refine ⟨Remains.receive (fun s' like => h s' (.of_alike like)) fun _ _ => h, ?_⟩
      rw [Task.advance, store_receive]
      exact ⟨guarded .., neat_asks neat asks⟩
  | running p =>
      cases p with
      | pure v => exact ⟨h, .refl s, neat⟩
      | fail fault => exact ⟨h, .refl s, neat⟩
      | act f next =>
          obtain ⟨fair, hnext⟩ := h good neat given
          exact ⟨hnext, fair.gentle, fair.neat good.housed good'.housed.parted neat⟩
      | enter lock mode next =>
          have asks : (s.guard lock).Asks t mode ((s.guard lock).request t mode) := .request
          refine ⟨Remains.receive (fun s' like => h neat s' (.inl like)) fun g waits s' gentle => ?_, ?_⟩
          · exact h neat s' (.inr ⟨isLocking_of_waits asks waits, gentle⟩)
          · rw [Task.advance, store_receive]
            exact ⟨guarded .., neat_asks neat asks⟩
      | leave lock mode next =>
          refine ⟨h _ (.setGuard s lock _), guarded .., neat.setGuard lock ?_⟩
          exact (Guard.kind_leave _ t mode).1
      | call request next => exact ⟨h s (.refl s), .refl s, neat⟩

theorem looking_advance (h : task.phase.program.Every Aside) (s : Store) :
    (task.advance s).1.phase.program.Every Aside := by
  obtain ⟨t, call, phase, progress⟩ := task
  have receive {lock : LockId} {mode : Mode} {next : Option BorrowFault → Action Value}
      {entry : Entry Guard} (hnext : ∀ r, (next r).Every Aside) :
      (Task.receive ⟨t, call, phase, progress⟩ s lock mode next entry).1.phase.program.Every Aside := by
    cases entry with
    | entered g => exact hnext none
    | refused fault g => exact hnext (some fault)
    | waits g => exact hnext
  cases phase with
  | waiting lock mode next => exact receive h
  | running p =>
      cases p with
      | pure | fail => trivial
      | act f next => exact h.2 s
      | enter lock mode next => exact receive h
      | leave | call => exact h

theorem remains_look (looks : ∃ p, task.call = .look p) (h : task.phase.program.Every Aside)
    (s : Store) : Remains c task s := by
  have behaves (p : Action Value) (hp : p.Every Aside) (s : Store) :
      Behaves c (Returns task.call) p task.progress.trail s := by
    obtain ⟨q, looks⟩ := looks
    rw [looks]
    exact behaves_mono (fun _ _ _ _ _ _ => trivial)
      (does_every lasting_true (every_aside hp) task.progress.trail s trivial)
  obtain ⟨t, call, phase, progress⟩ := task
  cases phase with
  | waiting lock mode next => exact fun s' _ r => behaves _ (h r) s'
  | running p => exact behaves p h s

/-! ## Steps -/

/-- All calls agree on homes, what holds all the time holds, and what is left of each call is
fair. -/
structure Kept (kept : Node → Prop) (sys : System Call) : Prop where
  agreed : Agreed sys
  neat : Neat kept sys.store
  looks : ∀ task ∈ sys.tasks, (∃ p, task.call = .look p) → task.phase.program.Every Aside
  remains : ∀ task ∈ sys.tasks, ∃ s₀, (Singles s₀ task.call → Singles sys.store task.call) ∧
    Remains (setting kept s₀ task.call) task sys.store

theorem kept_idle (files : FileTree) : Kept kept (Housing.idle files) where
  agreed := Housing.agreed_idle files
  neat := neat_ofFiles files
  looks _ h := nomatch h
  remains _ h := nomatch h

theorem singles_mono (later : s.Later s') {request : Call} (h : Singles s request) :
    Singles s' request := by
  have single {d : DocumentId} (h : s.Single d) : s'.Single d := by
    obtain ⟨has, same⟩ := later.documents d h.1
    exact ⟨has, by rw [same]; exact h.2⟩
  cases request with
  | insert i => cases i <;> first | exact single h | exact h
  | append d v => exact single h
  | _ => exact h

theorem Kept.start (h : Kept kept sys) {t : ThreadId} {request : Call}
    (allowed : Allowed sys (.start t request))
    (spared : ∀ n, Lost (next sys (.start t request)) n → ¬ kept n) :
    Kept kept (next sys (.start t request)) where
  agreed := h.agreed.start t allowed.2.1
  neat := h.neat
  looks task mem := by
    rcases List.mem_append.mp mem with old | new
    · exact h.looks task old
    · cases List.mem_singleton.mp new
      rintro ⟨p, rfl⟩
      exact allowed.1
  remains task mem := by
    rcases List.mem_append.mp mem with old | new
    · exact h.remains task old
    · cases List.mem_singleton.mp new
      refine ⟨sys.store, id, behaves_call allowed.1 allowed.2.1 fun singles n names => spared n ?_⟩
      exact ⟨_, List.mem_append_right _ (List.mem_singleton_self _), singles, .inl names⟩

/-- One step of a call keeps what is kept. -/
theorem Kept.step (h : Kept kept sys) {i : Nat} (allowed : Allowed sys (.step i))
    (spared : ∀ n, Lost (sys.step i) n → ¬ kept n) :
    Kept kept (sys.step i) ∧ Gentle kept sys.store (sys.step i).store := by
  cases found : sys.tasks[i]? with
  | none =>
      have same : sys.step i = sys := by rw [System.step, found]
      rw [same]
      exact ⟨h, .refl _⟩
  | some mover =>
      have mem := List.mem_of_getElem? found
      have agreed := h.agreed.step i
      have later := h.agreed.later_step i
      have good := h.agreed.good i
      rw [System.trail_of_task found] at good
      have moved : (sys.step i).tasks[i]? = some (mover.advance sys.store).1 := by
        rw [System.task_step found, if_pos rfl]
      have good' := agreed.good i
      rw [System.trail_of_task moved, System.store_step found] at good'
      obtain ⟨s₀, singles, remains⟩ := h.remains mover mem
      -- What the call has made by now is not kept, if the call goes to one owner.
      obtain ⟨remains', gentle, neat⟩ := remains.advance good good' h.neat fun single n made =>
        spared n ⟨_, List.mem_of_getElem? moved, singles_mono later (by simpa using singles single),
          .inr made⟩
      have store := System.store_step found
      refine ⟨⟨agreed, store ▸ neat, fun task mem' looks => ?_, fun task mem' => ?_⟩, store ▸ gentle⟩
      all_goals
        obtain ⟨j, found'⟩ := List.mem_iff_getElem?.mp mem'
        rw [System.task_step found] at found'
        split at found'
      · cases found'
        exact looking_advance (h.looks mover mem (by simpa using looks)) sys.store
      · exact h.looks task (List.mem_of_getElem? found') looks
      · cases found'
        refine ⟨s₀, fun single => singles_mono later ?_, ?_⟩
        · rw [Task.call_advance] at single ⊢
          exact singles single
        · rw [Task.call_advance, store]
          exact remains'
      · next hne =>
          have mem'' := List.mem_of_getElem? found'
          obtain ⟨s₁, singles', remains''⟩ := h.remains task mem''
          refine ⟨s₁, fun single => singles_mono later (singles' single), ?_⟩
          by_cases looks : ∃ p, task.call = .look p
          · exact remains_look looks (h.looks task mem'' looks) _
          · exact remains''.later (allowed j task found' hne) (fun p hp => looks ⟨p, hp⟩)
              (store ▸ gentle)

theorem task_next {move : Move} {i : Nat} (found : (next sys move).tasks[i]? = some task) :
    sys.tasks[i]? = some task ∨
      (∃ t request, move = .start t request ∧ task = .start t request (Call.program request)) ∨
      move = .step i ∧ ∃ mover, sys.tasks[i]? = some mover ∧ task = (mover.advance sys.store).1 := by
  cases move with
  | start t request =>
      rw [next, System.start, List.getElem?_append] at found
      split at found
      · exact .inl found
      · exact .inr (.inl ⟨t, request, rfl, List.mem_singleton.mp (List.mem_of_getElem? found)⟩)
  | step j =>
      cases moving : sys.tasks[j]? with
      | none =>
          rw [next, System.step, moving] at found
          exact .inl found
      | some mover =>
          rw [next, System.task_step moving] at found
          split at found
          · next same =>
              subst same
              exact .inr (.inr ⟨rfl, mover, moving, (Option.some.inj found).symm⟩)
          · exact .inl found

theorem allowed_again {i : Nat} (allowed : Allowed sys (.step i)) :
    Allowed (next sys (.step i)) (.step i) := by
  intro j task found hne
  obtain old | ⟨t, request, move, -⟩ | ⟨move, -⟩ := task_next found
  · exact allowed j task old hne
  · cases move
  · cases move
    exact absurd rfl hne

theorem next_task {i : Nat} (found : sys.tasks[i]? = some task) (move : Move) :
    (next sys move).tasks[i]? = some task ∨
      (next sys move).tasks[i]? = some (task.advance sys.store).1 ∧
        (next sys move).store = (task.advance sys.store).2 := by
  cases move with
  | start t request =>
      refine .inl ?_
      rw [next, System.start, List.getElem?_append_left (List.getElem?_eq_some_iff.mp found).1]
      exact found
  | step j =>
      cases moving : sys.tasks[j]? with
      | none =>
          rw [next, System.step, moving]
          exact .inl found
      | some mover =>
          rw [next, System.task_step moving, System.store_step moving]
          split
          · next same =>
              rw [same, moving] at found
              cases found
              exact .inr ⟨rfl, rfl⟩
          · exact .inl found

/-! ## Runs -/

/-- Where moves lead that are made one after the other. -/
def run (files : FileTree) (moves : List Move) : System Call := moves.foldl next (Housing.idle files)

/-- Each move is made when scripts allow it. -/
def Scripted (files : FileTree) (moves : List Move) : Prop :=
  ∀ k move, moves[k]? = some move → Allowed (run files (moves.take k)) move

/-- A call and some steps of it. -/
def calls (t : ThreadId) (request : Call) (i n : Nat) : List Move :=
  .start t request :: .replicate n (.step i)

namespace Scripted

theorem nil {files : FileTree} : Scripted files [] := fun _ _ none => nomatch none

theorem concat {files : FileTree} {moves : List Move} (h : Scripted files moves) {move : Move}
    (allowed : Allowed (run files moves) move) : Scripted files (moves ++ [move]) := by
  intro k move' found
  rw [List.getElem?_append] at found
  split at found
  · next early =>
      rw [List.take_append_of_le_length (Nat.le_of_lt early)]
      exact h k move' found
  · next late =>
      rw [List.getElem?_singleton] at found
      split at found
      · next last =>
          cases found
          obtain rfl : k = moves.length := by omega
          rwa [List.take_left]
      · cases found

theorem steps {files : FileTree} {moves : List Move} (h : Scripted files moves) (i n : Nat)
    (allowed : Allowed (run files moves) (.step i)) :
    Scripted files (moves ++ .replicate n (.step i)) := by
  suffices Scripted files (moves ++ .replicate n (.step i)) ∧
      Allowed (run files (moves ++ .replicate n (.step i))) (.step i) from this.1
  induction n with
  | zero => simpa using ⟨h, allowed⟩
  | succ n ih =>
      obtain ⟨scripted, allowed⟩ := ih
      rw [List.replicate_succ', ← List.append_assoc]
      refine ⟨scripted.concat allowed, ?_⟩
      rw [run, List.foldl_append]
      exact allowed_again allowed

theorem calls {files : FileTree} {moves : List Move} (h : Scripted files moves) (t : ThreadId)
    (request : Call) (plain : Plain request) (fits : request.Fits (run files moves).store)
    (ways : ∀ task ∈ (run files moves).tasks, GivesWay task) {i : Nat}
    (last : (run files moves).tasks.length = i) (n : Nat) :
    Scripted files (moves ++ Overlap.calls t request i n) := by
  rw [Overlap.calls, List.append_cons]
  have started : Allowed (run files moves) (.start t request) := ⟨plain, fits, ways⟩
  refine (h.concat started).steps i n fun j task found hne => ?_
  rw [run, List.foldl_append] at found
  change ((run files moves).tasks ++ [Task.start t request request.program])[j]? = some task at found
  rw [List.getElem?_append] at found
  split at found
  · exact ways task (List.mem_of_getElem? found)
  · next late =>
      obtain ⟨inside, -⟩ := List.getElem?_eq_some_iff.mp found
      rw [List.length_singleton] at inside
      omega

end Scripted

/-- How things are after a number of moves. -/
abbrev moment (files : FileTree) (moves : List Move) (k : Nat) : System Call :=
  run files (moves.take k)

variable {files : FileTree} {moves : List Move}

theorem moment_some {k : Nat} {move : Move} (found : moves[k]? = some move) :
    moment files moves (k + 1) = next (moment files moves k) move := by
  rw [moment, List.take_add_one, run, List.foldl_append, found]
  rfl

theorem moment_none {k : Nat} (found : moves[k]? = none) :
    moment files moves (k + 1) = moment files moves k := by
  rw [moment, List.take_add_one, found, Option.toList_none, List.append_nil]

/-- What each move keeps lasts from one moment to any later one. -/
theorem lasts {P : System Call → Prop} (step : ∀ k move, moves[k]? = some move →
      P (moment files moves k) → P (moment files moves (k + 1)))
    {j k : Nat} (hjk : j ≤ k) (hP : P (moment files moves j)) : P (moment files moves k) := by
  induction hjk with
  | refl => exact hP
  | @step k _ ih =>
      cases found : moves[k]? with
      | none => exact moment_none found ▸ ih
      | some move => exact step k move found ih

theorem mem_moment {k : Nat} (mem : task ∈ (moment files moves k).tasks) :
    ∃ t, .start t task.call ∈ moves := by
  refine lasts (P := fun sys => ∀ task ∈ sys.tasks, ∃ t, Move.start t task.call ∈ moves)
    (fun k move found known task mem => ?_) (Nat.zero_le k) (fun _ none => nomatch none) task mem
  rw [moment_some found] at mem
  obtain ⟨i, found'⟩ := List.mem_iff_getElem?.mp mem
  obtain old | ⟨t, request, rfl, rfl⟩ | ⟨-, mover, old, rfl⟩ := task_next found'
  · exact known task (List.mem_of_getElem? old)
  · exact ⟨t, List.mem_of_getElem? found⟩
  · rw [Task.call_advance]
    exact known mover (List.mem_of_getElem? old)

theorem agreed_next {move : Move} (allowed : Allowed sys move) (h : Agreed sys) :
    Agreed (next sys move) := by
  cases move with
  | start t request => exact h.start t allowed.2.1
  | step i => exact h.step i

theorem Scripted.agreed (h : Scripted files moves) (k : Nat) : Agreed (moment files moves k) := by
  refine lasts (fun k move found agreed => ?_) (Nat.zero_le k) (Housing.agreed_idle files)
  rw [moment_some found]
  exact agreed_next (h k move found) agreed

theorem trail_advance (task : Task Call) (s : Store) :
    (task.advance s).1.progress.trail = task.progress.trail ∨
      (task.advance s).1.progress.trail = task.progress.trail ++ [(s, (task.advance s).2)] := by
  obtain ⟨t, call, phase, progress⟩ := task
  have receive (lock : LockId) (mode : Mode) (next : Option BorrowFault → Action Value)
      (entry : Entry Guard) :
      (Task.receive ⟨t, call, phase, progress⟩ s lock mode next entry).1.progress.trail =
        progress.trail := by
    cases entry <;> rfl
  cases phase with
  | waiting lock mode next => exact .inl (receive ..)
  | running p =>
      cases p with
      | pure | fail | call | leave => exact .inl rfl
      | enter lock mode next => exact .inl (receive ..)
      | act f next => exact .inr rfl

theorem subset_trail_advance (task : Task Call) (s : Store) :
    task.progress.trail ⊆ (task.advance s).1.progress.trail := by
  obtain same | more := trail_advance task s
  · exact same ▸ List.Subset.refl _
  · exact more ▸ List.subset_append_left ..

theorem lost_next {move : Move} (agreed : Agreed sys) {n : Node} (lost : Lost sys n) :
    Lost (next sys move) n := by
  obtain ⟨task, mem, singles, how⟩ := lost
  cases move with
  | start t request => exact ⟨task, List.mem_append_left _ mem, singles, how⟩
  | step i =>
      obtain ⟨j, found⟩ := List.mem_iff_getElem?.mp mem
      have later := agreed.later_step i
      cases moving : sys.tasks[i]? with
      | none =>
          rw [next, System.step, moving]
          exact ⟨task, mem, singles, how⟩
      | some mover =>
          have found' := System.task_step moving j
          split at found'
          · next same =>
              rw [same, moving] at found
              cases found
              refine ⟨_, List.mem_of_getElem? found', ?_, ?_⟩
              · rw [Task.call_advance]
                exact singles_mono later singles
              · rw [Task.call_advance]
                refine how.imp_right fun made => ?_
                obtain ⟨step, hstep, new⟩ := made
                exact ⟨step, subset_trail_advance task sys.store hstep, new⟩
          · rw [found] at found'
            exact ⟨task, List.mem_of_getElem? found', singles_mono later singles, how⟩

/-- The statements that no call of a run brings to one owner. -/
def Spared (files : FileTree) (moves : List Move) (n : Node) : Prop := ¬ Lost (run files moves) n

namespace Scripted

theorem not_lost (h : Scripted files moves) {n : Node} (spared : Spared files moves n) (k : Nat) :
    ¬ Lost (moment files moves k) n := by
  intro lost
  refine spared ?_
  obtain early | late := Nat.le_total k moves.length
  · have final := lasts (P := fun sys => Lost sys n) (fun j move found lost => ?_) early lost
    · rwa [moment, List.take_length] at final
    · rw [moment_some found]
      exact lost_next (h.agreed j) lost
  · rwa [moment, List.take_of_length_le late] at lost

private theorem kept_next (h : Scripted files moves) {k : Nat} {move : Move}
    (found : moves[k]? = some move) (kept : Kept (Spared files moves) (moment files moves k)) :
    Kept (Spared files moves) (moment files moves (k + 1)) ∧
      Gentle (Spared files moves) (moment files moves k).store (moment files moves (k + 1)).store := by
  have spared (n : Node) (lost : Lost (next (moment files moves k) move) n) : ¬ Spared files moves n :=
    fun spared => h.not_lost spared (k + 1) (moment_some found ▸ lost)
  rw [moment_some found]
  cases move with
  | start t request => exact ⟨kept.start (h k _ found) spared, .refl _⟩
  | step i => exact kept.step (h k _ found) spared

/-- At any moment all is well with the statements that are spared. -/
theorem keeps (h : Scripted files moves) (k : Nat) : Kept (Spared files moves) (moment files moves k) :=
  lasts (fun _ _ found kept => (h.kept_next found kept).1) (Nat.zero_le k) (kept_idle files)

/-- From one moment to any later one, statements that are spared lose nothing. -/
theorem gentle (h : Scripted files moves) {j k : Nat} (hjk : j ≤ k) :
    Gentle (Spared files moves) (moment files moves j).store (moment files moves k).store := by
  induction hjk with
  | refl => exact .refl _
  | @step k _ ih =>
      refine ih.trans ?_
      cases found : moves[k]? with
      | none => exact moment_none found ▸ .refl _
      | some move => exact (h.kept_next found (h.keeps k)).2

end Scripted

end NinjaFile.Overlap
