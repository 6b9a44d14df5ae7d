import NinjaFile.Proofs.Sharing.Start
import NinjaFile.Script.Schedule

/-!
# What threads can count on

Threads that share a document are never refused a guard; every insertion has a place of its
own, in the order in which its thread made it, and its handle leads there; and nothing that
was attached is lost.
-/

namespace NinjaFile.Sharing

open Store Program Script

/-! ## Handles -/

/-- A handle that an insertion gives leads to what this insertion has appended. -/
def Work.Leads (w : Work) (r : Except Fault Value) (g : Progress Store) (s : Store) : Prop :=
  ∀ i h, w.call = .insert i → r = .ok (.object (.handle h)) → i.Gives h g s

section

variable {d : DocumentId} {a : Arena} {base s : Store} {sys : System Work} {call : Call}

theorem Call.tame_program (call : Call) (h : ∀ i, call ≠ .insert i) : call.program.Tame true := by
  cases call with
  | insert i => exact absurd rfl (h i)
  | makeRule | makeBuild | makePool | attach | usePool | addPaths | render =>
      grind [Call.program]
  | hold l => exact tame_guarded _ _ trivial (granted_ok _)
  | comment | binding | defaults | subninja | inclusion => exact tame_chained (by grind)
  | source items raises => exact tame_update fun _ => .newSource _

private theorem ready_insertion (safe : Safe d a s) {i : Insertion}
    (fits : (Call.insert i).Fits d a s) : i.Ready s := by
  have belongs : Belongs d a i.owner := fits.belongs _ rfl
  rw [Insertion.Ready]
  split
  · next other heq =>
      rw [heq] at belongs
      exact (show other = d from belongs) ▸ safe.known
  · next h heq =>
      rw [heq] at belongs
      exact (show h.arena = a from belongs) ▸ safe.place.known
  · trivial

theorem Call.wp_program (safe : Safe d a s) (fits : call.Fits d a s) (k : Stake)
    (g : Progress Store) : call.program.wp growth (Work.Leads ⟨call, k⟩) g s := by
  by_cases hinsert : ∃ i, call = .insert i
  · obtain ⟨i, rfl⟩ := hinsert
    change (i.program >>= fun h => Pure.pure h.toValue).wp growth _ g s
    rw [wp_bind]
    refine wp_mono ?_ (Insertion.wp_program (ready_insertion safe fits))
    intro r g s given
    cases r with
    | error fault => exact fun _ _ _ heq => by cases heq
    | ok h =>
        intro j h' hj heq
        cases hj
        cases heq
        exact given h rfl
  · refine wp_mono ?_ (wp_tame lasting_true
      (call.tame_program fun i heq => hinsert ⟨i, heq⟩) trivial)
    exact fun r g s _ i h heq => absurd ⟨i, heq⟩ hinsert

theorem growing_rest (sound : s.Sound) : (⟨s, []⟩ : System Work).Growing Work.Leads where
  sound := sound
  stands _ hmem := absurd hmem List.not_mem_nil

theorem growing_next (harmony : Harmony d a base sys) (h : sys.Growing Work.Leads)
    (move : Move) : (next d a sys move).Growing Work.Leads := by
  cases move with
  | start t call =>
      rw [next]
      split
      · next may =>
          exact System.growing_start h (Call.wp_program harmony.safe may.fits _ .start)
      · exact h
  | step i =>
      rw [next]
      split
      · exact (System.growing_step h i).1
      · exact h

theorem growing_run (harmony : Harmony d a base sys) (h : sys.Growing Work.Leads)
    (moves : List Move) : (run d a sys moves).Growing Work.Leads := by
  induction moves generalizing sys with
  | nil => exact h
  | cons move rest ih => exact ih (harmony.next move) (growing_next harmony h move)

end

/-! ## The contract -/

/-- What holds at any time of all calls that threads have made on a shared document, since
it was as it was in a store. -/
structure Contract (a : Arena) (base : Store) (sys : System Work) : Prop where
  /-- No call fails for want of a guard. -/
  granted : ∀ task ∈ sys.tasks, ∀ fault, task.outcome? = some (.error fault) →
    fault.isBorrow = false
  /-- What calls have appended, each at its place, is just what the document holds. -/
  slots : (sys.tasks.flatMap fun task => added a.statements task.progress.trail).Perm
    (sys.store.list a.statements).items.zipIdx
  /-- Only insertions append, and they do so once. -/
  once : ∀ task ∈ sys.tasks, (added a.statements task.progress.trail).length ≤
    if task.call.call.inserts then 1 else 0
  /-- A thread finds what it has inserted in the order in which it has inserted it. -/
  order : sys.tasks.Pairwise fun earlier later => earlier.thread = later.thread →
    ∀ e ∈ added a.statements earlier.progress.trail,
      ∀ e' ∈ added a.statements later.progress.trail, e.2 < e'.2
  /-- A handle that was given leads to what its call has appended, for every thread that is
  in no other call except to hold lists; at most it has to wait for somebody who writes. -/
  leads : ∀ task ∈ sys.tasks, ∀ i h, task.call.call = .insert i →
    task.outcome? = some (.ok (.object (.handle h))) →
    h.arena = a ∧ ∃ v k, i.Inserts v ∧ added a.statements task.progress.trail = [(v, k)] ∧
      h.index = (k : Int) ∧
      ∀ t, (∀ other ∈ sys.tasks, other.thread = t → other.goesOn → other.call.call.holds) →
        match (sys.store.guard (.list a.statements)).request t .read with
        | .entered _ => (Task.runAlone t h.statement sys.store).1 = .done v
        | .refused _ _ => False
        | .waits _ => ∃ next, (Task.runAlone t h.statement sys.store).1 =
            .waiting (.list a.statements) .read next
  /-- The statement that a call was made about is the one it is about. -/
  subject : ∀ task ∈ sys.tasks, task.call.stake.node = task.call.call.subject? sys.store
  /-- Every call that has returned has done what it is for. -/
  done : ∀ task ∈ sys.tasks, ∀ v, task.outcome? = some (.ok v) →
    task.call.call.Done a task.call.stake task.progress.trail
  /-- A list of a statement holds what it held before and then what calls have added to it,
  in the order in which they were made. -/
  contents : ∀ n q, content sys.store n q = content base n q ++
    sys.tasks.flatMap fun task => gained n q task.progress.trail

section

variable {d : DocumentId} {a : Arena} {base : Store} {sys : System Work} {task : Task Work}

/-- Nobody is refused a look at the document who is not in the middle of a change. -/
private theorem not_refused_reader (h : Harmony d a base sys) {t : ThreadId}
    (idle : ∀ other ∈ sys.tasks, other.thread = t → other.goesOn → other.call.call.holds)
    (fault : BorrowFault) (g : Guard) :
    (sys.store.guard (.list a.statements)).request t .read ≠ .refused fault g := by
  have outside : ¬ Writes sys.tasks a.statements t := by
    rintro ⟨other, hmem, thread, hin⟩
    have orderly := h.each other hmem
    cases goes : other.goesOn with
    | false =>
        rw [orderly.outside goes] at hin
        exact List.not_mem_nil hin
    | true =>
        have holds := orderly.serves.2.trans (idle other hmem thread goes)
        exact absurd (holds.symm.trans (orderly.writes _ hin).1) nofun
  have closed (write : Mode.read = .write) : reads sys.tasks a.statements t = 0 := nomatch write
  refine Guard.not_refused (h.accounted a.statements) outside closed ?_ .request fault
  rintro (cooperative | ⟨write, -⟩)
  · have := (h.fitted.kind a.statements).mpr h.safe.place.shared
    exact absurd (this.symm.trans cooperative) nofun
  · exact nomatch write

private theorem leads_of_harmony (h : Harmony d a base sys) (growing : sys.Growing Work.Leads)
    (hmem : task ∈ sys.tasks) {i : Insertion} {handle : Handle}
    (hcall : task.call.call = .insert i)
    (houtcome : task.outcome? = some (.ok (.object (.handle handle)))) :
    handle.arena = a ∧ ∃ v k, i.Inserts v ∧ added a.statements task.progress.trail = [(v, k)] ∧
      handle.index = (k : Int) ∧ handle.Leads v sys.store := by
  have ends := (h.each task hmem).ended _ houtcome
  obtain rfl : handle.arena = a := ends.inside _ rfl handle rfl
  obtain ⟨s₀, hext, hleads⟩ := (growing.stands task hmem).outcome houtcome
  obtain ⟨v, hinserts, leads, k, hindex, holds⟩ := hleads i handle hcall rfl
  refine ⟨rfl, v, k, hinserts, ?_, hindex, leads.mono hext⟩
  have done := ends.done _ rfl
  rw [hcall] at done
  obtain ⟨e, he⟩ := List.length_eq_one_iff.mp (done rfl)
  have mine := holds.mine
  rw [he] at mine ⊢
  rw [List.mem_singleton.mp mine]

theorem Harmony.contract (h : Harmony d a base sys) (growing : sys.Growing Work.Leads) :
    Contract a base sys where
  granted task hmem fault hfault := ((h.each task hmem).ended _ hfault).granted fault rfl
  slots := h.slots
  once task hmem := by
    have orderly := h.each task hmem
    split
    · exact orderly.once
    · next inserts =>
        rw [← orderly.serves.1] at inserts
        by_contra some
        exact inserts (orderly.inserts fun none => some (by rw [none]; exact Nat.le_refl 0))
  order := h.pairs.imp fun follows => follows.order
  leads task hmem i handle hcall houtcome := by
    obtain ⟨rfl, v, k, hinserts, hadded, hindex, leads⟩ :=
      leads_of_harmony h growing hmem hcall houtcome
    refine ⟨rfl, v, k, hinserts, hadded, hindex, fun t idle => ?_⟩
    have looked := leads.runAlone_statement t
    have granted := not_refused_reader h idle
    generalize (sys.store.guard (.list handle.arena.statements)).request t .read = entry
      at looked granted ⊢
    cases entry with
    | entered => exact looked
    | refused fault g => exact absurd rfl (granted fault g)
    | waits => exact looked
  subject task hmem := (h.each task hmem).aims
  done task hmem v houtcome := ((h.each task hmem).ended _ houtcome).done v rfl
  contents := h.contents

end

/-- Whatever threads do with a new thread-safe document, and in whatever order their steps
come, they can count on the contract. -/
theorem run_contract (files : FileTree) {config : List (Value × Value)}
    (typed : TypedConfig config)
    (threadSafe : Settings.value (TypedConfig.settings config) "thread_safe" = .bool true)
    {d : DocumentId} {s : Store}
    (made : (DocumentId.make (.mapping config)).alone (.ofFiles files) = (.ok d, s))
    (moves : List Move) :
    Contract (s.document d).arena s (run d (s.document d).arena ⟨s, []⟩ moves) := by
  obtain ⟨rfl, settings, view, logging, serial, rfl⟩ :=
    ensures_firstDocument files typed threadSafe d s made
  have harmony := @harmony_ofDocument files settings view logging serial
  exact (harmony.run moves).contract (growing_run harmony (growing_rest sound_ofDocument) moves)

/-- Two threads insert at the same time, and then one attaches to what the other has
inserted. -/
def together : List Move :=
  .start 1 (.makeRule (.text "r") (.text "c") .single) :: .replicate 10 (.step 0) ++
    .start 1 (.insert (.addRule ⟨0⟩ ⟨1⟩)) :: .start 2 (.comment ⟨0⟩ (.text "x")) ::
      (List.replicate 20 [.step 1, .step 2]).flatten ++
    .start 2 (.attach (.node (.rule ⟨1⟩)) [(.text "a", .text "b")]) :: .replicate 10 (.step 3)

theorem run_contract_together :
    let made := (DocumentId.make (.mapping [(.text "thread_safe", .bool true)])).alone
      (.ofFiles ⟨[], []⟩)
    let a := (made.2.document ⟨0⟩).arena
    let sys := run ⟨0⟩ a ⟨made.2, []⟩ together
    made.1 = .ok ⟨0⟩ ∧ Contract a made.2 sys ∧ (∀ task ∈ sys.tasks, task.goesOn = false) ∧
      (sys.store.list a.statements).items.length = 2 ∧
        (content sys.store (.rule ⟨1⟩) .bindings).length = 2 := by
  intro made a sys
  have typed : TypedConfig [(Value.text "thread_safe", Value.bool true)] := by
    constructor <;> simp
  refine ⟨rfl, run_contract ⟨[], []⟩ typed rfl rfl together, ?_, ?_, ?_⟩ <;> decide +kernel

/-- A path is on its way to a build that is in no document yet; in between, another thread
appends the build. -/
def overtaken : List Step := [
  .mk (some "d") (.make .document
    [.mapping [(.constant (.text "thread_safe"), .constant (.bool true))]] []),
  .mk (some "r") (.make .rule [.constant (.text "r"), .constant (.text "c")] []),
  .mk (some "b") (.make .build [.named "r", .list [.constant (.text "o")]] []),
  .mk none (.call "b" (.named "with_") [.source [.constant (.text "x")]
    [.mk none (.fork [.mk none (.call "d" (.named "add_build") [.named "b"] [])])] none] []),
  .mk none (.call "d" .text [] [])]

/-- The call that attaches the path returns, but the document does not have the path. -/
theorem run_overtaken : let answers := Script.run overtaken ⟨[], []⟩
    (∀ answer ∈ answers, answer.fault?.isNone) ∧
      answers.getLast?.bind Answer.text? = some "\nbuild o: r\n" := by
  decide +kernel

end NinjaFile.Sharing
