import NinjaFile.Proofs.Frame.Calls
import NinjaFile.Proofs.Program.Among
import NinjaFile.Proofs.Program.Interleaving

/-!
# Runs that keep homes

Whatever calls threads have made, and however far each of them is, every list is that of one
place.  So something that is attached shows in one place only.
-/

namespace NinjaFile

open Store Program Script
open Sharing (MadeList madeList_append)

namespace Housing

/-! ## Steps -/

section

variable {κ : Type} {task : Task κ} {s : Store}
  {Q : Except Fault Value → Progress Store → Store → Prop}

/-- A step is an act that the thread takes note of, or it leaves all but guards alone. -/
theorem noted (h : task.Stands terms Q s) :
    ((task.advance s).1.progress.trail = task.progress.trail ∧ s.Alike (task.advance s).2) ∨
      (task.advance s).1.progress.trail = task.progress.trail ++ [(s, (task.advance s).2)] ∧
        Act task.progress.trail s (task.advance s).2 := by
  obtain ⟨t, call, phase, progress⟩ := task
  have receive (lock : LockId) (mode : Mode) (next : Option BorrowFault → Action Value)
      (entry : Entry Guard) :
      (Task.receive ⟨t, call, phase, progress⟩ s lock mode next entry).1.progress.trail =
          progress.trail ∧
        s.Alike (Task.receive ⟨t, call, phase, progress⟩ s lock mode next entry).2 := by
    cases entry <;> exact ⟨rfl, .setGuard s lock _⟩
  cases phase with
  | waiting lock mode next => exact .inl (receive lock mode next _)
  | running p =>
      cases p with
      | pure | fail | call => exact .inl ⟨rfl, .refl s⟩
      | enter lock mode next => exact .inl (receive lock mode next _)
      | leave lock mode next => exact .inl ⟨rfl, .setGuard s lock _⟩
      | act f next =>
          obtain ⟨s₀, rely, wp⟩ := h
          exact .inr ⟨rfl, (wp s rely trivial).1⟩

end

/-! ## Runs -/

def idle (files : FileTree) : System Call := ⟨.ofFiles files, []⟩

/-- Threads make calls on what is there, and go on with them in any order. -/
inductive Reached (files : FileTree) : System Call → Prop where
  | idle : Reached files (idle files)
  | start {sys : System Call} (h : Reached files sys) (t : ThreadId) {call : Call}
      (fits : call.Fits sys.store) : Reached files (sys.start t call call.program)
  | step {sys : System Call} (h : Reached files sys) (i : Nat) : Reached files (sys.step i)

/-- All calls agree on one register, no two of them have made the same list, and each of them
stands by the terms. -/
structure Agreed (sys : System Call) : Prop where
  agrees : ∃ reg : Register, ∀ i, reg.Agrees (sys.trail i) sys.store
  apart : ∀ i j, i ≠ j → ∀ l, MadeList (sys.trail i) l → ¬ MadeList (sys.trail j) l
  stands : ∀ (i : Nat) (task : Task Call), sys.tasks[i]? = some task →
    task.Stands terms (fun _ _ _ => True) sys.store

theorem agreed_idle (files : FileTree) : Agreed (idle files) where
  agrees := by
    refine ⟨fun _ _ => False, fun i => ⟨⟨rfl, ?_, ?_, ?_, ?_⟩, ?_, ?_, ?_⟩⟩
    · exact fun l x houses => not_hasPlace_ofFiles files x houses.has
    · exact fun _ _ _ h => h.elim
    · exact fun _ _ h => h.elim
    · exact fun _ _ h => h.elim
    · exact fun _ _ saw => absurd saw not_saw_nil
    · exact fun _ _ _ h => h
    · exact fun _ made => absurd made not_madeList_nil
  apart _ _ _ _ made := absurd made not_madeList_nil
  stands _ _ found := nomatch found

namespace Agreed

variable {sys : System Call}

theorem good (h : Agreed sys) (i : Nat) : Good (sys.trail i) sys.store := by
  obtain ⟨reg, agrees⟩ := h.agrees
  exact ⟨reg, agrees i⟩

theorem housed (h : Agreed sys) : sys.store.Housed := (h.good 0).housed

theorem start (h : Agreed sys) (t : ThreadId) {call : Call} (fits : call.Fits sys.store) :
    Agreed (sys.start t call call.program) where
  agrees := by
    obtain ⟨reg, agrees⟩ := h.agrees
    refine ⟨reg, fun i => ?_⟩
    rw [System.trail_start]
    exact agrees i
  apart i j hne l := by
    rw [System.trail_start, System.trail_start]
    exact h.apart i j hne l
  stands i task found := by
    rw [System.start, List.getElem?_append] at found
    split at found
    · exact h.stands i task found
    · obtain rfl := List.mem_singleton.mp (List.mem_of_getElem? found)
      obtain ⟨reg, agrees⟩ := h.agrees
      have good : Good [] sys.store := ⟨reg, (agrees 0).nil⟩
      exact Task.stands_start steady_terms trivial
        (wp_mono (fun _ _ _ _ => trivial) (does_call call .start _ good fits)) t call

private theorem moved (h : Agreed sys) (i : Nat) :
    ((∀ j, (sys.step i).trail j = sys.trail j) ∧ sys.store.Alike (sys.step i).store) ∨
      (∀ j, (sys.step i).trail j =
        if j = i then sys.trail i ++ [(sys.store, (sys.step i).store)] else sys.trail j) ∧
      Act (sys.trail i) sys.store (sys.step i).store := by
  cases found : sys.tasks[i]? with
  | none =>
      rw [System.step, found]
      exact .inl ⟨fun _ => rfl, .refl _⟩
  | some task =>
      rw [System.store_step found, System.trail_of_task found]
      obtain ⟨same, like⟩ | ⟨more, act⟩ := noted (h.stands i task found)
      · refine .inl ⟨fun j => ?_, like⟩
        rw [System.trail_step found]
        split
        · next heq => rw [same, heq, System.trail_of_task found]
        · rfl
      · refine .inr ⟨fun j => ?_, act⟩
        rw [System.trail_step found, more]

private theorem rely_other {trail trail' : List (Store × Store)} {s s' : Store} {reg : Register}
    (act : Act trail s s') (agrees : reg.Agrees trail s) (agrees' : reg.Agrees trail' s)
    (apart : ∀ l, MadeList trail l → ¬ MadeList trail' l) : Rely trail' s s' where
  later := act.later
  good _ := by
    obtain ⟨after, items⟩ := act.agrees_other agrees agrees' apart
    exact ⟨⟨_, after⟩, items⟩

private theorem agrees_step (h : Agreed sys) (i : Nat) :
    ∃ reg : Register, ∀ j, reg.Agrees ((sys.step i).trail j) (sys.step i).store := by
  obtain ⟨reg, agrees⟩ := h.agrees
  refine ⟨reg.add (sys.step i).store, fun j => ?_⟩
  obtain ⟨trails, like⟩ | ⟨trails, act⟩ := h.moved i
  · rw [trails]
    exact ((act_alike like).agrees_other (agrees j).nil (agrees j) fun _ made =>
      absurd made not_madeList_nil).1
  · rw [trails]
    split
    · exact act.agrees_own (agrees i)
    · next hne => exact (act.agrees_other (agrees i) (agrees j) (h.apart i j fun heq => hne heq.symm)).1

private theorem apart_step (h : Agreed sys) (i j k : Nat) (hne : j ≠ k) (l : ListId)
    (made : MadeList ((sys.step i).trail j) l) : ¬ MadeList ((sys.step i).trail k) l := by
  obtain ⟨reg, agrees⟩ := h.agrees
  obtain ⟨trails, -⟩ | ⟨trails, -⟩ := h.moved i
  · rw [trails] at made ⊢
    exact h.apart j k hne l made
  · -- What is made in a step is new to everybody.
    have new (k : Nat) (hk : k ≠ i) (made : MadeList (sys.trail k) l) :
        ¬ MadeList (sys.trail i ++ [(sys.store, (sys.step i).store)]) l := by
      rw [madeList_append]
      rintro (old | ⟨late, -⟩)
      · exact h.apart i k hk.symm l old made
      · exact absurd ((agrees k).made l made) (Nat.not_lt.mpr late)
    rw [trails] at made ⊢
    split at made <;> split
    · next hj hk => exact absurd (hj.trans hk.symm) hne
    · next hk => exact fun made' => new k hk made' made
    · next hj _ => exact new j hj made
    · exact h.apart j k hne l made

private theorem stands_step (h : Agreed sys) (i j : Nat) (task : Task Call)
    (found : (sys.step i).tasks[j]? = some task) :
    task.Stands terms (fun _ _ _ => True) (sys.step i).store := by
  cases moving : sys.tasks[i]? with
  | none =>
      rw [System.step, moving] at found ⊢
      exact h.stands j task found
  | some mover =>
      rw [System.task_step moving] at found
      split at found
      · cases found
        rw [System.store_step moving]
        exact ((h.stands i mover moving).advance steady_terms trivial fun _ _ _ => trivial).1
      · next hne =>
          refine (h.stands j task found).rely steady_terms ?_
          obtain ⟨reg, agrees⟩ := h.agrees
          rw [← System.trail_of_task found]
          obtain ⟨-, like⟩ | ⟨-, act⟩ := h.moved i
          · exact rely_alike like
          · exact rely_other act (agrees i) (agrees j) (h.apart i j fun heq => hne heq.symm)

theorem step (h : Agreed sys) (i : Nat) : Agreed (sys.step i) :=
  ⟨h.agrees_step i, h.apart_step i, h.stands_step i⟩

theorem later_step (h : Agreed sys) (i : Nat) : sys.store.Later (sys.step i).store := by
  obtain ⟨-, like⟩ | ⟨-, act⟩ := h.moved i
  · exact .of_alike like
  · exact act.later

end Agreed

theorem Reached.steps {files : FileTree} {sys : System Call} (h : Reached files sys) (i n : Nat) :
    Reached files ((fun sys => sys.step i)^[n] sys) := by
  induction n generalizing sys with
  | zero => exact h
  | succ n ih => exact ih (h.step i)

theorem Reached.agreed {files : FileTree} {sys : System Call} (h : Reached files sys) : Agreed sys := by
  induction h with
  | idle => exact agreed_idle files
  | start _ t fits ih => exact ih.start t fits
  | step _ i ih => exact ih.step i

/-- Every store that calls lead to is one in which each list is that of one place. -/
theorem Reached.housed {files : FileTree} {sys : System Call} (h : Reached files sys) :
    sys.store.Housed := h.agreed.housed

end Housing

/-! ## The frame of an attachment -/

namespace Script.Attacher

open Housing

variable {files : FileTree} {sys : System Housing.Call} {d : DocumentId} {h : Handle} {m : Mixin}
  {a : Attacher}

/-- Whatever calls have been made on a store, and however far they are: what is attached
through a handle into a document, while others only use guards, stands at the end of one list
of the statement that the handle leads to, all of it if the call does not fail; everything else
is held as it was; it does not matter which of the handles to this slot with these methods is
used; and in what a document says, only the blocks of this statement are others than before. -/
theorem attached_framed (reached : Reached files sys) (leads : sys.store.Leads h d)
    (mixin : mixin? (.handle h) = some m) (fits : a.fits m) {t : ThreadId} {κ : Type} {call : κ}
    {task : Task κ} {s' : Store}
    (run : Task.Among Store.Alike (.start t call (chained (.handle h) (a.program (.handle h))))
      sys.store task s')
    {res : Except Fault Value} (ended : task.outcome? = some res) :
    a.Ends h sys.store res s' ∧
      (∀ x, sys.store.HasPlace x →
        (∀ n : Node, h.item? sys.store = some n.toValue → x ≠ .part n a.part) →
        s'.held x = sys.store.held x) ∧
      (∀ h' : Handle, h.SameSlot h' → mixin? (.handle h') = some m →
        (a.program (.handle h')).alone sys.store = (a.program (.handle h)).alone sys.store) ∧
      ∀ e, sys.store.HasDocument e → ∃ old new, sys.store.Renders e old ∧ s'.Renders e new ∧
        ∀ i : Nat, new[i]?.map Prod.fst = old[i]?.map Prod.fst ∧
          ((sys.store.held (.statements e))[i]? ≠ h.item? sys.store → new[i]? = old[i]?) := by
  have housed := reached.housed
  -- Since its last step others have used guards, written log lines and taken items at most.
  obtain ⟨s₀, like, ends⟩ := run.outcome steady_calm trivial
    (fun _ _ _ change => ⟨fun _ => change, trivial⟩) (wp_program housed leads mixin fits) trivial ended
  have ends := ends.trans like
  have attached := ends.attached
  refine ⟨ends, fun x hx hne => attached.held_eq housed hx hne, fun h' same mixin' => ?_,
    fun e he => attached.renders housed he⟩
  exact same.alone_program (Handle.expected_eq_of_mixin mixin mixin') housed.unassigned a

def drafted : System Housing.Call :=
  let rule : Housing.Call := .insert (.rule ⟨0⟩ (.text "r") (.text "c"))
  let made := (fun sys => sys.step 0)^[40]
    ((Housing.idle ⟨[], []⟩).start 0 (.document []) (Housing.Call.document []).program)
  (fun sys => sys.step 1)^[40] (made.start 0 rule rule.program)

def ruleHandle : Handle := ⟨5, .rule, (drafted.store.document ⟨0⟩).arena, 0⟩

def described : Task Unit × Store :=
  Task.move^[20] (.start 0 () (chained (.handle ruleHandle)
    ((Attacher.bind (.description (.text "x"))).program (.handle ruleHandle))), drafted.store)

theorem attached_framed_described :
    Reached ⟨[], []⟩ drafted ∧ drafted.store.Leads ruleHandle ⟨0⟩ ∧
      (∃ res, described.1.outcome? = some res ∧
        (Attacher.bind (.description (.text "x"))).Ends ruleHandle drafted.store res described.2) ∧
      (drafted.store.held (.part (.rule ⟨1⟩) .bindings)).length = 1 ∧
      (described.2.held (.part (.rule ⟨1⟩) .bindings)).length = 2 := by
  have typed : (Housing.Call.document []).Fits (Housing.idle ⟨[], []⟩).store := by
    constructor <;> simp
  have made := (Reached.idle.start 0 typed).steps 0 40
  have fits : (Housing.Call.insert (.rule ⟨0⟩ (.text "r") (.text "c"))).Fits
      ((fun sys => sys.step 0)^[40] ((Housing.idle ⟨[], []⟩).start 0 (.document [])
        (Housing.Call.document []).program)).store := by
    change 0 < _
    decide +kernel
  have reached : Reached ⟨[], []⟩ drafted := (made.start 0 fits).steps 1 40
  have has : 0 < drafted.store.documents.size := by decide +kernel
  have leads : drafted.store.Leads ruleHandle ⟨0⟩ := ⟨has, by rw [ruleHandle]⟩
  have ends : described.1.outcome?.isSome := by decide +kernel
  obtain ⟨res, ended⟩ := Option.isSome_iff_exists.mp ends
  refine ⟨reached, leads, ⟨res, ended, ?_⟩, ?_, ?_⟩
  · have run := Task.Among.moves Store.Alike (.start 0 () (chained (.handle ruleHandle)
      ((Attacher.bind (.description (.text "x"))).program (.handle ruleHandle)))) drafted.store 20
    exact (attached_framed (m := .ruleVariables) reached leads rfl rfl run ended).1
  · decide +kernel
  · decide +kernel

end Script.Attacher

end NinjaFile
