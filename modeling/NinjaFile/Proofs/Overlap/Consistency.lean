import NinjaFile.Proofs.Overlap.Extending
import NinjaFile.Proofs.Overlap.Landing
import NinjaFile.Proofs.Overlap.Rendering
import NinjaFile.Script.Schedule

/-!
# Renderings that overlap other work

A thread renders a document, and stops wherever somebody else writes to a list, while others
append statements and attach to them.  The text is that of the statements which the document
held at one time during the rendering, each with lists as they were at times during the
rendering.  As lists only grow, the text shows beginnings of what the lists hold in the end, and
everything that they held when the rendering started.
-/

namespace NinjaFile.Overlap

open Store Program
open Housing (Call Saw)

variable {files : FileTree} {moves : List Move}

/-! ## What is shown -/

/-- What is shown of a place by a rendering that goes on from a moment to another. -/
structure Shown (files : FileTree) (moves : List Move) (b e : Nat) (x : Place)
    (items : List Value) : Prop where
  /-- It is all that is held there at some moment of the rendering. -/
  whole : ∃ k, b ≤ k ∧ k ≤ e ∧ (moment files moves k).store.held x = items
  /-- Everything is in it that was held there before the rendering. -/
  early : (moment files moves b).store.HasPlace x → (moment files moves b).store.held x <+: items
  /-- There is nothing in it that is not still there in the end. -/
  late : items <+: (run files moves).store.held x
  /-- What a move adds is in it or is not in it, but not only in part. -/
  apiece : ∀ k, (moment files moves k).store.HasPlace x →
    items <+: (moment files moves k).store.held x ∨
      (moment files moves (k + 1)).store.held x <+: items

theorem Scripted.shown (h : Scripted files moves) {b k e : Nat} (hbk : b ≤ k) (hke : k ≤ e)
    {x : Place} (spared : SparedPlace files moves x) (has : (moment files moves k).store.HasPlace x) :
    Shown files moves b e x ((moment files moves k).store.held x) where
  whole := ⟨k, hbk, hke, rfl⟩
  early before := h.held hbk spared before
  late := h.held_run k spared has
  apiece j there := by
    obtain older | newer := Nat.lt_or_ge j k
    · exact .inr (h.held older spared (h.hasPlace (Nat.le_succ j) there))
    · exact .inl (h.held newer spared has)

theorem Scripted.shown_of_glimpsed (h : Scripted files moves) {b e : Nat} (later : b ≤ e)
    {task : Task Call}
    (found : (moment files moves e).tasks[(moment files moves b).tasks.length]? = some task)
    {x : Place} (spared : SparedPlace files moves x) {items : List Value}
    (glimpsed : Glimpsed task.progress.trail x items) : Shown files moves b e x items := by
  obtain ⟨step, taken, there, rfl⟩ := glimpsed
  obtain ⟨j, hbj, hje, rfl⟩ := steps_after later (Nat.le_refl _) found step taken
  exact h.shown hbj (Nat.le_of_lt hje) spared there

/-! ## Renderings -/

/-- Somebody renders a document. -/
def rendering (d : DocumentId) : Call :=
  .look (d.render >>= fun text => Pure.pure (Value.text text))

/-- A rendering gives a text of what there is, or is refused a guard. -/
def Ends (c : Viewing) : Except Fault Value → Progress Store → Store → Prop
  | .ok v, g, s => c.Clear s ∧ ∃ text, v = .text text ∧ Rendered c text g.trail s
  | .error fault, _, _ => fault.isBorrow = true

theorem wp_rendering {c : Viewing} {s : Store} (clear : c.Clear s) :
    (rendering c.document).program.wp c.terms (Ends c) .start s := by
  refine wp_mono (fun r g s hr => ?_) (tells_bind tells_render (fun text => tells_pure
    (Q := fun (v : Value) trail s => ∃ text, v = .text text ∧ Rendered c text trail s)
    fun _ _ _ h => ⟨text, rfl, h⟩) .start s clear trivial)
  cases r with
  | ok v => exact hr
  | error fault => exact hr

/-- The text shows the statements that a document held at one time of a rendering, and each with
lists as they were at times of the rendering. -/
structure Consistent (files : FileTree) (moves : List Move) (b e : Nat) (d : DocumentId)
    (text : String) (vs : List Value) (xs : List Statement) : Prop where
  text : text = Layout.file Layout.defaultIndent xs
  statements : Shown files moves b e (.statements d) vs
  lists : List.Forall₂ (fun v st => ∃ seen, (moment files moves e).store.ReadsAs seen v st ∧
    ∀ n, v.node? = some n → ∀ q ∈ n.parts, Shown files moves b e (.part n q) (seen q)) vs xs

section

variable (scripted : Scripted files moves) {b : Nat} {t : ThreadId} {d : DocumentId}
  (begins : moves[b]? = some (.start t (rendering d)))
  (has : (moment files moves b).store.HasDocument d)
  (spared : ∀ n : Node, n.toValue ∈ (run files moves).store.held (.statements d) →
    Spared files moves n)

include scripted has spared

theorem clear_at {k : Nat} (hbk : b ≤ k) :
    Viewing.Clear ⟨Spared files moves, d⟩ (moment files moves k).store where
  housed := (scripted.agreed k).housed
  has := ((scripted.gentle hbk).documents d has).1
  kept n hn := by
    have there := ((scripted.gentle hbk).documents d has).1
    have kept := spared n ((scripted.held_run k (x := .statements d) trivial there).subset hn)
    exact ⟨kept, (scripted.keeps k).neat.settled d there n kept hn⟩

theorem consistent_of_rendered {e : Nat} (later : b ≤ e) {task : Task Call}
    (found : (moment files moves e).tasks[(moment files moves b).tasks.length]? = some task)
    {text : String} (rendered : Rendered ⟨Spared files moves, d⟩ text task.progress.trail
      (moment files moves e).store) : ∃ vs xs, Consistent files moves b e d text vs xs := by
  obtain ⟨vs, xs, glimpsed, told, same⟩ := rendered
  refine ⟨vs, xs, same, scripted.shown_of_glimpsed later found (x := .statements d) trivial glimpsed, ?_⟩
  refine told.imp fun v st ⟨stands, seen, reads, glimpsed⟩ => ⟨seen, reads, fun n node q hq => ?_⟩
  refine scripted.shown_of_glimpsed later found (x := .part n q) ?_ (glimpsed n node q hq)
  obtain rfl := Value.eq_toValue node
  exact ((clear_at scripted has spared later).kept n stands).1

include begins

/-- The rendering goes on, whatever the others do. -/
theorem rendering_at {k : Nat} (hbk : b < k) : ∃ task,
    (moment files moves k).tasks[(moment files moves b).tasks.length]? = some task ∧
      task.call = rendering d ∧
        task.Stands (Viewing.terms ⟨Spared files moves, d⟩) (Ends ⟨Spared files moves, d⟩)
          (moment files moves k).store := by
  let c : Viewing := ⟨Spared files moves, d⟩
  have clear {k : Nat} (hbk : b ≤ k) : c.Clear (moment files moves k).store :=
    clear_at scripted has spared hbk
  induction hbk with
  | refl =>
      refine ⟨.start t (rendering d) (rendering d).program, ?_, rfl, ?_⟩ <;> rw [moment_some begins]
      · simp [next, System.start]
      · exact Task.stands_start c.steady (clear (Nat.le_refl b))
          (wp_rendering (clear (Nat.le_refl b))) t _
  | @step k hbk ih =>
      obtain ⟨task, found, same, stands⟩ := ih
      have hbk : b ≤ k := Nat.le_of_succ_le hbk
      have gentle := scripted.gentle (Nat.le_succ k)
      cases move : moves[k]? with
      | none =>
          rw [moment_none move]
          exact ⟨task, found, same, stands⟩
      | some m =>
          rw [moment_some move] at gentle ⊢
          obtain idle | ⟨moved, store⟩ := next_task found m
          · exact ⟨task, idle, same, stands.rely c.steady gentle⟩
          · rw [store]
            refine ⟨_, moved, (Task.call_advance ..).trans same, ?_⟩
            exact (stands.advance c.steady (clear hbk) fun _ _ _ => trivial).1

/-- A rendering of a document, all statements of which go to shared owners only, while others
append and attach: the text is consistent; unless there is none yet, or a guard is refused.
Whatever a call had attached before the rendering to a list that a statement still had then is
held when the rendering starts, and so it is shown of this statement.  And whoever extends a list
does so in one step, of which all is shown or nothing. -/
theorem rendering_consistent {e : Nat} (later : b < e) : ∃ task,
    (moment files moves e).tasks[(moment files moves b).tasks.length]? = some task ∧
      task.call = rendering d ∧
      (∀ v, task.outcome? = some (.ok v) →
        ∃ text vs xs, v = .text text ∧ Consistent files moves b e d text vs xs) ∧
      (∀ fault, task.outcome? = some (.error fault) → fault.isBorrow = true) ∧
      (∀ caller ∈ (moment files moves b).tasks, ∀ w, caller.outcome? = some (.ok w) →
        Attaches caller.progress.trail (fun n q items =>
          n.toValue ∈ (run files moves).store.held (.statements d) →
            Lands files moves b caller.progress.trail n q items) caller.call) ∧
      ∀ caller ∈ (moment files moves e).tasks, Extends caller.call →
        caller.progress.trail.Pairwise fun step step' => Same step ∨ Same step' := by
  obtain ⟨task, found, same, stands⟩ := rendering_at scripted begins has spared later
  refine ⟨task, found, same, fun v ended => ?_, fun fault ended => ?_, fun caller mem w ended => ?_,
    fun caller mem => extends_once mem⟩
  · obtain ⟨s, gentle, clear, text, rfl, rendered⟩ := stands.outcome ended
    have rendered := (firm_rendered text).later _ _ _ clear gentle rendered
    obtain ⟨vs, xs, consistent⟩ :=
      consistent_of_rendered scripted has spared (Nat.le_of_lt later) found rendered
    exact ⟨text, vs, xs, rfl, consistent⟩
  · obtain ⟨s, -, borrow⟩ := stands.outcome ended
    exact borrow
  · obtain ⟨s, -, remains⟩ := (scripted.keeps b).remains caller mem
    exact (remains.outcome ended w rfl).mono fun n q items put there =>
      scripted.lands mem (spared n there) put

end

/-- A rule is in a document and has got a description. -/
def described : List Move :=
  calls 0 (.document [(.text "thread_safe", .bool true)]) 0 30 ++
    calls 0 (.insert (.rule ⟨0⟩ (.text "r") (.text "c"))) 1 30 ++
    calls 0 (.attach (.node (.rule ⟨1⟩)) (.bind (.description (.text "x")))) 2 9

/-- Somebody holds a list of the rule, a rendering waits for it, somebody else adds to the
document, and then the rendering goes on. -/
def awaiting : List Move :=
  described ++ calls 2 (.look (Program.guarded (.list ⟨4⟩) .write (Pure.pure .null))) 3 1 ++
    calls 1 (rendering ⟨0⟩) 4 20 ++ calls 0 (.comment ⟨0⟩ (.text "y")) 5 15 ++
    .replicate 2 (.step 3) ++ .replicate 12 (.step 4)

/-- The text that a call has given. -/
def givenText? (task : Task Call) : Option String :=
  match task.outcome? with
  | some (.ok (.text text)) => some text
  | _ => none

theorem outcome_of_givenText {task : Task Call} {text : String} (h : givenText? task = some text) :
    task.outcome? = some (.ok (.text text)) := by
  rw [givenText?] at h
  split at h
  · next same =>
      cases h
      exact same
  · cases h

theorem scripted_described : Scripted ⟨[], []⟩ described := by
  refine ((Scripted.nil.calls 0 _ ?_ ?_ ?_ ?_ 30).calls 0 _ ?_ ?_ ?_ ?_ 30).calls 0 _ ?_ ?_ ?_ ?_ 9
  · trivial
  · constructor <;> simp
  · decide +kernel
  · decide +kernel
  · trivial
  · change 0 < _
    decide +kernel
  · decide +kernel
  · decide +kernel
  · trivial
  · refine ⟨?_, .inl rfl⟩
    change 1 < _
    decide +kernel
  · decide +kernel
  · decide +kernel

theorem scripted_awaiting : Scripted ⟨[], []⟩ awaiting := by
  have holds : (Program.guarded (.list ⟨4⟩) .write (Pure.pure .null) : Action Value).Every Aside := by
    intro r
    cases r <;> trivial
  have renders : ((⟨0⟩ : DocumentId).render >>= fun text => Pure.pure (Value.text text)).Every Aside :=
    every_bind (aside_render ⟨0⟩) fun _ => trivial
  refine ((((scripted_described.calls 2 _ ?_ ?_ ?_ ?_ 1).calls 1 _ ?_ ?_ ?_ ?_ 20).calls
    0 _ ?_ ?_ ?_ ?_ 15).steps 3 2 ?_).steps 4 12 ?_
  · exact holds
  · exact Housing.every_aside holds
  · decide +kernel
  · decide +kernel
  · exact renders
  · exact Housing.every_aside renders
  · decide +kernel
  · decide +kernel
  · trivial
  · change 0 < _
    decide +kernel
  · decide +kernel
  · decide +kernel
  · exact allowed_step (by decide +kernel)
  · exact allowed_step (by decide +kernel)

theorem spared_awaiting (n : Node) : Spared ⟨[], []⟩ awaiting n := by
  rintro ⟨task, mem, singles, -⟩
  have shared : ((run ⟨[], []⟩ awaiting).store.document ⟨0⟩).arena.ownership ≠ .single := by
    decide +kernel
  obtain ⟨t, start⟩ := mem_moment (k := awaiting.length) (by rwa [moment, List.take_length])
  simp only [awaiting, described, calls, List.mem_append, List.mem_cons, List.mem_replicate,
    Move.start.injEq, reduceCtorEq, and_false, or_false] at start
  obtain ((((⟨-, same⟩ | ⟨-, same⟩) | ⟨-, same⟩) | ⟨-, same⟩) | ⟨-, same⟩) | ⟨-, same⟩ := start
  all_goals rw [same] at singles
  · exact singles
  · exact shared singles.2
  · exact singles
  · exact singles
  · exact singles
  · exact singles

theorem rendering_consistent_awaiting :
    Scripted ⟨[], []⟩ awaiting ∧ awaiting[74]? = some (.start 1 (rendering ⟨0⟩)) ∧
      (moment ⟨[], []⟩ awaiting 74).store.HasDocument ⟨0⟩ ∧ (∀ n, Spared ⟨[], []⟩ awaiting n) ∧
      ((run ⟨[], []⟩ awaiting).store.held (.statements ⟨0⟩)).length = 2 ∧
      ∃ vs xs, Consistent ⟨[], []⟩ awaiting 74 125 ⟨0⟩
        "\nrule r\n  command = c\n  description = x\n" vs xs := by
  have has : (moment ⟨[], []⟩ awaiting 74).store.HasDocument ⟨0⟩ := by
    change 0 < _
    decide +kernel
  obtain ⟨task, found, -, consistent, -⟩ := rendering_consistent scripted_awaiting
    (b := 74) rfl has (fun n _ => spared_awaiting n) (e := 125) (by decide)
  have given : (moment ⟨[], []⟩ awaiting 125).tasks[4]?.bind givenText? =
      some "\nrule r\n  command = c\n  description = x\n" := by
    decide +kernel
  have fourth : (moment ⟨[], []⟩ awaiting 74).tasks.length = 4 := by decide +kernel
  rw [fourth] at found
  rw [found] at given
  obtain ⟨text, vs, xs, same, consistent⟩ := consistent _ (outcome_of_givenText given)
  cases same
  exact ⟨scripted_awaiting, rfl, has, spared_awaiting, by decide +kernel, vs, xs, consistent⟩

/-- The texts that waiting threads gave when a list was let go. -/
def resumedTexts (answer : Script.Answer) : List String :=
  match answer with
  | .mk _ _ _ _ _ _ _ (some threads) _ _ => threads.flatten.filterMap Script.Answer.text?
  | _ => []

/-- A path is on its way to a build that is in no document yet; in between, another thread
appends the build.  After that a rendering waits for a list, while another thread adds to the
document. -/
def missed : List Script.Step := [
  .mk (some "d") (.make .document
    [.mapping [(.constant (.text "thread_safe"), .constant (.bool true))]] []),
  .mk (some "r") (.make .rule [.constant (.text "r"), .constant (.text "c")] []),
  .mk (some "b") (.make .build [.named "r", .list [.constant (.text "o")]] []),
  .mk none (.call "b" (.named "with_") [.source [.constant (.text "x")]
    [.mk none (.fork [.mk none (.call "d" (.named "add_build") [.named "b"] [])])] none] []),
  .mk (some "v") (.get "b" "variables"),
  .mk none (.hold "v" .write
    [.mk none (.fork [.mk none (.call "d" .text [] [])]),
      .mk none (.fork [.mk none (.call "d" (.named "comment") [.constant (.text "y")] [])])] none)]

/-- What was attached before is not in the text of the rendering. -/
theorem run_missed : let answers := Script.run missed ⟨[], []⟩
    (∀ answer ∈ answers, answer.fault?.isNone) ∧
      answers.getLast?.map resumedTexts = some ["\nbuild o: r\n"] := by
  decide +kernel

end NinjaFile.Overlap
