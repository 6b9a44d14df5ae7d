import NinjaFile.Proofs.Overlap.Runs

/-!
# Where attached items go

A call that attaches finds a list of the statement and adds to it later on, when it has its items
and nobody reads the list.  Meanwhile somebody can bring the statement to another owner, so that
it has a copy of the list by then.  The items are in the list of the statement for good if this
cannot happen: if the lists are shared when the call starts, and nobody gives the statement to
one owner.
-/

namespace NinjaFile.Overlap

open Store Program
open Housing (Call Saw)

variable {files : FileTree} {moves : List Move}

/-! ## Steps of calls -/

/-- The steps of a call that was started at some moment lead from moments to the next ones. -/
theorem steps_after {b k : Nat} (hbk : b ≤ k) {i : Nat}
    (late : (moment files moves b).tasks.length ≤ i) {task : Task Call}
    (found : (moment files moves k).tasks[i]? = some task) :
    ∀ step ∈ task.progress.trail, ∃ j, b ≤ j ∧ j < k ∧
      step = ((moment files moves j).store, (moment files moves (j + 1)).store) := by
  induction hbk generalizing task with
  | refl =>
      rw [List.getElem?_eq_none late] at found
      cases found
  | @step k hbk ih =>
      have older {task : Task Call} (old : (moment files moves k).tasks[i]? = some task) :
          ∀ step ∈ task.progress.trail, ∃ j, b ≤ j ∧ j < k + 1 ∧
            step = ((moment files moves j).store, (moment files moves (j + 1)).store) := by
        intro step mem
        obtain ⟨j, hbj, hjk, heq⟩ := ih old step mem
        exact ⟨j, hbj, Nat.lt_succ_of_lt hjk, heq⟩
      cases move : moves[k]? with
      | none => exact older (moment_none move ▸ found)
      | some m =>
          have heq : moment files moves (k + 1) = _ := moment_some move
          obtain old | ⟨t, request, -, rfl⟩ | ⟨rfl, mover, old, rfl⟩ := task_next (heq ▸ found)
          · exact older old
          · exact fun _ none => (List.not_mem_nil none).elim
          · have store : (moment files moves (k + 1)).store =
                (mover.advance (moment files moves k).store).2 := by
              rw [heq, next, System.store_step old]
            intro step mem
            obtain same | more := trail_advance mover (moment files moves k).store
            · exact older old step (same ▸ mem)
            · rw [more] at mem
              rcases List.mem_append.mp mem with mem | new
              · exact older old step mem
              · exact ⟨k, hbk, Nat.lt_succ_self k, by rw [store]; exact List.mem_singleton.mp new⟩

/-! ## Places that lose nothing -/

/-- The place is a document, or in a statement that no call brings to one owner. -/
def SparedPlace (files : FileTree) (moves : List Move) : Place → Prop
  | .part n _ => Spared files moves n
  | .statements _ => True

theorem Scripted.hasPlace (h : Scripted files moves) {j k : Nat} (hjk : j ≤ k) {x : Place}
    (has : (moment files moves j).store.HasPlace x) : (moment files moves k).store.HasPlace x := by
  cases x with
  | part n q => exact ⟨(h.gentle hjk).nodes n has.1, has.2⟩
  | statements d => exact ((h.gentle hjk).documents d has).1

theorem Scripted.held (h : Scripted files moves) {j k : Nat} (hjk : j ≤ k) {x : Place}
    (spared : SparedPlace files moves x) (has : (moment files moves j).store.HasPlace x) :
    (moment files moves j).store.held x <+: (moment files moves k).store.held x := by
  cases x with
  | part n q => exact (h.gentle hjk).held n spared has.1 q has.2
  | statements d => exact (h.gentle hjk).statements has

theorem Scripted.held_run (h : Scripted files moves) (k : Nat) {x : Place}
    (spared : SparedPlace files moves x) (has : (moment files moves k).store.HasPlace x) :
    (moment files moves k).store.held x <+: (run files moves).store.held x := by
  obtain early | late := Nat.le_total k moves.length
  · have final := h.held early spared has
    rwa [moment, moment, List.take_length] at final
  · simp only [moment, List.take_of_length_le late, List.prefix_rfl]

/-! ## What calls have put where -/

/-- A call has put items into a list that it has seen to be that of a part of a statement, all of
them in one step from one moment to another.  If it still was the list of this part, they are
there after the step, behind what was there before. -/
def Delivered (files : FileTree) (moves : List Move) (a b : Nat) (trail : List (Store × Store)) (n : Node)
    (q : Part) (items : List Value) : Prop :=
  ∃ l, Saw trail l (.part n q) ∧
    ∃ j, a ≤ j ∧ j < b ∧ (moment files moves j).store.HasPlace (.part n q) ∧
      ((moment files moves j).store, (moment files moves (j + 1)).store) ∈ trail ∧
      (moment files moves (j + 1)).store =
        (moment files moves j).store.modifyList l (·.append items) ∧
      ((moment files moves j).store.part n q = l →
        (moment files moves (j + 1)).store.held (.part n q) =
          (moment files moves j).store.held (.part n q) ++ items)

theorem Scripted.delivered (h : Scripted files moves) {a b : Nat} (hab : a ≤ b) {i : Nat}
    (late : (moment files moves a).tasks.length ≤ i) {task : Task Call}
    (found : (moment files moves b).tasks[i]? = some task) {n : Node} {q : Part}
    {items : List Value} (put : Put n q items task.progress.trail) :
    Delivered files moves a b task.progress.trail n q items := by
  obtain ⟨l, saw, step, taken, has, put⟩ := put
  obtain ⟨j, haj, hjb, rfl⟩ := steps_after hab late found step taken
  have there : (moment files moves j).store.HasPlace (.part n q) := by
    obtain ⟨other, -, houses⟩ := saw
    exact ⟨has, houses.elim (·.has.2) (·.has.2)⟩
  refine ⟨l, saw, j, haj, hjb, there, taken, put, ?_⟩
  rintro rfl
  have housed := (h.agreed j).housed
  have appended := held_append housed.known housed.apart there there items
  rw [if_pos rfl] at appended
  exact (congrArg (fun s => s.held (.part n q)) put).trans appended

/-- A call has put items into a list that it has seen to be that of a part of a statement, all of
them in one step before a moment.  If it was still the list of this part then, they are there
at the moment, one after the other and behind what was there before. -/
def Lands (files : FileTree) (moves : List Move) (b : Nat) (trail : List (Store × Store)) (n : Node)
    (q : Part) (items : List Value) : Prop :=
  ∃ l, Saw trail l (.part n q) ∧
    ∃ j < b, ((moment files moves j).store, (moment files moves (j + 1)).store) ∈ trail ∧
      (moment files moves (j + 1)).store =
        (moment files moves j).store.modifyList l (·.append items) ∧
      ((moment files moves j).store.part n q = l →
        (moment files moves j).store.held (.part n q) ++ items <+:
          (moment files moves b).store.held (.part n q))

theorem Scripted.lands (h : Scripted files moves) {b : Nat} {task : Task Call}
    (mem : task ∈ (moment files moves b).tasks) {n : Node} (spared : Spared files moves n) {q : Part}
    {items : List Value} (put : Put n q items task.progress.trail) :
    Lands files moves b task.progress.trail n q items := by
  obtain ⟨i, found⟩ := List.mem_iff_getElem?.mp mem
  obtain ⟨l, saw, j, -, hjb, there, taken, put, appended⟩ :=
    h.delivered (Nat.zero_le b) (Nat.zero_le i) found put
  refine ⟨l, saw, j, hjb, taken, put, fun still => ?_⟩
  rw [← appended still]
  exact h.held hjb (x := .part n q) spared (h.hasPlace (Nat.le_succ j) there)

namespace Scripted

variable (h : Scripted files moves) {a b : Nat} {n : Node}

/-! ## Lists that stay -/

section

variable (spared : Spared files moves n) (node : (moment files moves a).store.HasNode n)
  (settled : (moment files moves a).store.Settled n)

include h spared node settled

theorem part_of_settled {k : Nat} (hak : a ≤ k) {q : Part} (hq : q ∈ n.parts) :
    (moment files moves k).store.part n q = (moment files moves a).store.part n q :=
  (h.gentle hak).parts n spared node settled q hq

/-- A call that starts later cannot see any other lists. -/
theorem part_of_saw (hab : a ≤ b) {i : Nat} (late : (moment files moves a).tasks.length ≤ i)
    {task : Task Call} (found : (moment files moves b).tasks[i]? = some task) {q : Part} {l : ListId}
    (saw : Saw task.progress.trail l (.part n q)) {j : Nat} (haj : a ≤ j) :
    (moment files moves j).store.part n q = l := by
  obtain ⟨step, taken, houses⟩ := saw
  obtain ⟨k, hak, -, rfl⟩ := steps_after hab late found step taken
  obtain houses | houses := houses
  · have hq := houses.has.2
    rw [h.part_of_settled spared node settled haj hq, ← h.part_of_settled spared node settled hak hq]
    exact houses.spot
  · have hq := houses.has.2
    rw [h.part_of_settled spared node settled haj hq,
      ← h.part_of_settled spared node settled (Nat.le_succ_of_le hak) hq]
    exact houses.spot

end

/-! ## Calls that return -/

section

variable (hab : a ≤ b) {i : Nat} (late : (moment files moves a).tasks.length ≤ i) {task : Task Call}
  (found : (moment files moves b).tasks[i]? = some task) {w : Value}
  (ended : task.outcome? = some (.ok w))

include h hab late found ended

/-- A call that returns has put what it attaches, in one step each time, into a list that the
statement had at some moment of the call. -/
theorem attaches_delivered :
    Attaches task.progress.trail (Delivered files moves a b task.progress.trail) task.call := by
  obtain ⟨s, -, remains⟩ := (h.keeps b).remains task (List.mem_of_getElem? found)
  exact (remains.outcome ended w rfl).mono fun n q items put => h.delivered hab late found put

/-- If the lists were shared before, and nobody gives the statement to one owner, then it has the
items from there on. -/
theorem attaches_lasting :
    Attaches task.progress.trail (fun n q items => Spared files moves n →
      (moment files moves a).store.HasNode n → (moment files moves a).store.Settled n →
      ∃ j, a ≤ j ∧ j < b ∧
        (moment files moves (j + 1)).store.held (.part n q) =
          (moment files moves j).store.held (.part n q) ++ items ∧
        ∀ k, j < k → (moment files moves j).store.held (.part n q) ++ items <+:
          (moment files moves k).store.held (.part n q)) task.call := by
  refine (h.attaches_delivered hab late found ended).mono fun n q items delivered spared node settled => ?_
  obtain ⟨l, saw, j, haj, hjb, there, -, -, appended⟩ := delivered
  have appended := appended (h.part_of_saw spared node settled hab late found saw haj)
  refine ⟨j, haj, hjb, appended, fun k hjk => ?_⟩
  rw [← appended]
  exact h.held hjk (x := .part n q) spared (h.hasPlace (Nat.le_succ j) there)

end

end Scripted

end NinjaFile.Overlap
