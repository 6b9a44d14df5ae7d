import NinjaFile.Proofs.Arena.Leading
import NinjaFile.Proofs.Script.Operations
import NinjaFile.Proofs.Store.Growth

/-!
# Arenas and handles are stable

Whatever callers do, in any order and even while their arguments are being consumed, the
statements of an arena stay where they are, and a handle that an insertion has given
leads to the statement that this insertion has appended.
-/

namespace NinjaFile

open Program Store Script

/-! ## Looking through a handle -/

namespace Handle.Leads

variable {h : Handle} {v : Value} {s : Store}

/-- A look through the handle gives just what it leads to, if its arena can be read. -/
theorem runAlone_statement (hl : h.Leads v s) (t : ThreadId) :
    match (s.guard (.list h.arena.statements)).request t .read with
    | .entered _ => (Task.runAlone t h.statement s).1 = .done v
    | .refused fault _ => (Task.runAlone t h.statement s).1 = .failed (.borrow fault)
    | .waits _ => ∃ next, (Task.runAlone t h.statement s).1 =
        .waiting (.list h.arena.statements) .read next := by
  obtain ⟨k, hindex, hitem⟩ := hl.item
  have looked : Task.runAlone t h.statement s =
      Task.runAlone t ((h.arena.statements.item (.int h.index)) >>= fun v =>
        if h.expected.admits v then Pure.pure v
        else .fail (.wrongKind h.expected.statementName v.typeName (.number h.index))) s := by
    rw [Handle.statement, Handle.statements, Task.runAlone_read, hl.statements_eq, Handle.place,
      Task.runAlone_read, hl.index_eq]
    rfl
  rw [looked, ListId.item, guarded, bind_eq, enter_bind, Task.runAlone_enter]
  cases (s.guard (.list h.arena.statements)).request t .read with
  | entered g =>
      change (Task.runAlone t ((thenLeave (ofExcept (Value.listItem
        ((s.setGuard _ g).list _).items _)) _ _).bind _) _).1 = _
      rw [items_setGuard, hindex, listItem_eq hitem]
      change (Task.runAlone t (if h.expected.admits v then Pure.pure v else _) _).1 = _
      rw [if_pos hl.admits]
      rfl
  | refused fault g => rfl
  | waits g => exact ⟨_, rfl⟩

end Handle.Leads

/-! ## What a call has appended -/

/-- What the steps of a call have put into a list, with the places it came to. -/
def added (l : ListId) (trail : List (Store × Store)) : List (Value × Nat) :=
  trail.flatMap fun (before, after) =>
    (after.list l).items.zipIdx.drop (before.list l).items.length

theorem added_append (l : ListId) (trail more : List (Store × Store)) :
    added l (trail ++ more) = added l trail ++ added l more :=
  List.flatMap_append

theorem mem_added_mono {l : ListId} {trail trail' : List (Store × Store)} {e : Value × Nat}
    (h : trail <+: trail') (he : e ∈ added l trail) : e ∈ added l trail' := by
  obtain ⟨more, rfl⟩ := h
  rw [added_append]
  exact List.mem_append_left _ he

theorem added_add {s : Store} {l : ListId} (hl : l.index < s.lists.size) (v : Value) :
    added l [(s, s.modifyList l (·.append [v]))] = [(v, (s.list l).items.length)] := by
  simp [added, items_append_eq, hl, List.zipIdx_append]

/-- A place of a list holds what a call has added there. -/
structure Holds (l : ListId) (v : Value) (k : Nat) (g : Progress Store) (s : Store) : Prop where
  mine : (v, k) ∈ added l g.trail
  item : (s.list l).items[k]? = some v

theorem lasting_holds (l : ListId) (v : Value) (k : Nat) : Lasting (Holds l v k) :=
  fun _ _ _ _ h htrail hext => ⟨mem_added_mono htrail h.mine, hext.item h.item⟩

/-! ## Insertions -/

section Insertions

variable {g : Progress Store} {s : Store}

theorem wp_listAdd {l : ListId} (hl : l.index < s.lists.size) (v : Value) :
    (l.add v).wp growth (fun r g s => ∀ k, r = .ok k → Holds l v k g s) g s := by
  rw [ListId.add, wp_guarded]
  intro s₁ hext₁ _
  refine ⟨trivial, ?_, fun _ fault k h => by cases h⟩
  rw [wp_update]
  intro s₂ hext₂ hsound
  have hl₂ : l.index < s₂.lists.size :=
    Nat.lt_of_lt_of_le hl (Nat.le_trans hext₁.lists hext₂.lists)
  have grown := Effect.append (w := false) (s := s₂) l [v]
  refine ⟨grown.extends, grown.sound hsound, ?_⟩
  intro k hk
  obtain rfl : (s₂.list l).items.length = k := Except.ok.inj hk
  constructor
  · rw [Progress.trail_leave, Progress.trail_note, added_append, added_add hl₂]
    exact List.mem_append_right _ (List.mem_singleton_self _)
  · rw [items_append_eq, if_pos ⟨rfl, hl₂⟩]
    simp

theorem wp_arenaAppend {arena : Arena} (hl : arena.statements.index < s.lists.size) (v : Value) :
    (arena.append v).wp growth (fun r g s => ∀ k, r = .ok k → Holds arena.statements v k g s)
      g s := by
  have lasting : Lasting fun _ s => arena.statements.index < s.lists.size :=
    fun _ _ _ _ h _ hext => Nat.lt_of_lt_of_le h hext.lists
  refine wp_tame_bind lasting (tame_arenaAdopt _ _) hl (fun _ _ _ _ _ h => by cases h)
    fun _ g s hl => ?_
  rw [wp_bind]
  refine wp_mono ?_ (wp_listAdd hl v)
  intro r g s hadded
  cases r with
  | error fault => exact fun k h => by cases h
  | ok k =>
      refine wp_tame_bind (lasting_holds _ v k) (tame_logAppended _ _ _) (hadded k rfl)
        (fun _ _ _ _ _ h => by cases h) fun _ g s hheld => ?_
      intro k' hk'
      exact Except.ok.inj hk' ▸ hheld

/-- What an insertion ends with, if it appends `v`: a handle that leads to it. -/
def Inserted (v : Value) (r : Except Fault Handle) (g : Progress Store) (s : Store) : Prop :=
  ∀ h, r = .ok h → h.Leads v s ∧ ∃ k : Nat, h.index = k ∧ Holds h.arena.statements v k g s

/-- A place to insert into: an arena that exists, or no arena at all. -/
def Ready (place : Value) (s : Store) : Prop :=
  ∀ arena, place = .object (.arena arena) → arena.statements.index < s.lists.size

theorem Ready.mono {place : Value} {s s' : Store} (h : Ready place s) (hext : s.Extends s') :
    Ready place s' :=
  fun arena heq => Nat.lt_of_lt_of_le (h arena heq) hext.lists

theorem wp_insert {place : Value} (hplace : Ready place s) {expected : Expected} {v : Value}
    (hv : expected.admits v) : (place.insert expected v).wp growth (Inserted v) g s := by
  rw [Value.insert, wp_bind]
  by_cases harena : ∃ arena, place = .object (.arena arena)
  · obtain ⟨arena, rfl⟩ := harena
    refine wp_mono ?_ (wp_arenaAppend (hplace arena rfl) v)
    intro r g s hadded
    cases r with
    | error fault => exact fun h heq => by cases heq
    | ok k =>
        have held := hadded k rfl
        change (Handle.make expected (.object (.arena arena)) (.int k)).wp growth (Inserted v) g s
        simp only [Handle.make]
        rw [wp_update]
        intro s' hext hsound
        have grown := Effect.serial (w := false) (s := s') [] plainAttributes_nil
        refine ⟨grown.extends, grown.sound hsound, ?_⟩
        intro h heq
        cases heq
        have held' := lasting_holds _ _ _ _ _ _ _ held List.prefix_rfl hext
        refine ⟨⟨Nat.lt_succ_self _, ?_, ⟨k, rfl, held'.item⟩, hv⟩, ⟨k, rfl, ?_⟩⟩
        · exact fun name => hsound.fresh _ name (Nat.le_refl _)
        · exact ⟨mem_added_mono (List.prefix_append _ _) held'.mine, held'.item⟩
  · have none : place.append v = .fail (.noAttribute place.typeName "append") := by
      rw [Value.append.eq_def]
      split
      · next arena => exact absurd ⟨arena, rfl⟩ harena
      · rfl
    rw [none]
    exact fun h heq => by cases heq

theorem wp_documentStatements {d : DocumentId} (hd : d.index < s.documents.size) :
    d.statements.wp growth (fun r _ s => ∀ place, r = .ok place → Ready place s) g s := by
  change (Value.storedMember _ _).wp growth _ g s
  rw [Value.storedMember, wp_read_bind]
  intro s' hext hsound
  refine ⟨.refl s', hsound, ?_⟩
  split
  · next w hstored =>
      intro place heq arena harena
      obtain rfl : w = place := Except.ok.inj heq
      subst harena
      rw [Value.stored?] at hstored
      split at hstored
      · next assigned hassigned =>
          rw [Option.some.injEq] at hstored
          subst hstored
          exact absurd hassigned (hsound.plain _ arena)
      · cases hstored
        exact hsound.arenas d (Nat.lt_of_lt_of_le hd hext.documents)
  · exact fun place h => by cases h

theorem wp_handleStatements {h : Handle} (hh : h.arena.statements.index < s.lists.size) :
    h.statements.wp growth (fun r _ s => ∀ place, r = .ok place → Ready place s) g s := by
  rw [Handle.statements, wp_read]
  intro s' hext hsound
  refine ⟨.refl s', hsound, ?_⟩
  intro place heq arena harena
  obtain rfl : _ = place := Except.ok.inj heq
  cases hassigned : s'.assigned? (.serial h.serial) "statements" with
  | none =>
      simp [Value.stored?, Value.identity?, Object.identity, hassigned, Value.field?,
        Object.field?] at harena
      exact harena ▸ Nat.lt_of_lt_of_le hh hext.lists
  | some w =>
      simp [Value.stored?, Value.identity?, Object.identity, hassigned] at harena
      exact absurd (harena ▸ hassigned) (hsound.plain _ arena)

theorem wp_documentInsert {d : DocumentId} (hd : d.index < s.documents.size)
    {expected : Expected} {v : Value} (hv : expected.admits v) :
    (d.insert expected v).wp growth (Inserted v) g s := by
  rw [DocumentId.insert, wp_bind]
  refine wp_mono ?_ (wp_documentStatements hd)
  intro r g s hready
  cases r with
  | error fault => exact fun h heq => by cases heq
  | ok place => exact wp_insert (hready place rfl) hv

theorem wp_handleInsert {h : Handle} (hh : h.arena.statements.index < s.lists.size)
    {expected : Expected} {v : Value} (hv : expected.admits v) :
    (h.statements >>= fun place => place.insert expected v).wp growth (Inserted v) g s := by
  rw [wp_bind]
  refine wp_mono ?_ (wp_handleStatements hh)
  intro r g s hready
  cases r with
  | error fault => exact fun h heq => by cases heq
  | ok place => exact wp_insert (hready place rfl) hv

end Insertions

namespace Script.Insertion

/-- What an insertion is made on is there. -/
def Ready (i : Insertion) (s : Store) : Prop :=
  match i.owner with
  | .document d => d.index < s.documents.size
  | .handle h => h.arena.statements.index < s.lists.size
  | _ => True

instance (i : Insertion) (s : Store) : Decidable (i.Ready s) := by
  unfold Ready
  split <;> infer_instance

/-- What an insertion can append: the statement it is given, or one of its own kind. -/
def Inserts (i : Insertion) (v : Value) : Prop :=
  match i with
  | .addRule _ r => v = .object (.rule r)
  | .addBuild _ b => v = .object (.build b)
  | .addPool _ p => v = .object (.pool p)
  | .rule .. | .ruleBy .. => ∃ r, v = .object (.rule r)
  | .phony .. | .buildBy .. => ∃ b, v = .object (.build b)
  | .pool .. => ∃ p, v = .object (.pool p)

/-- A handle that an insertion may give: it leads to what this insertion has appended. -/
def Gives (i : Insertion) (h : Handle) (g : Progress Store) (s : Store) : Prop :=
  ∃ v, i.Inserts v ∧ h.Leads v s ∧ ∃ k : Nat, h.index = k ∧ Holds h.arena.statements v k g s

theorem wp_program {i : Insertion} {g : Progress Store} {s : Store} (hready : i.Ready s) :
    i.program.wp growth (fun r g s => ∀ h, r = .ok h → i.Gives h g s) g s := by
  have given {v : Value} (hv : i.Inserts v) {p : Action Handle} {g : Progress Store} {s : Store}
      (hp : p.wp growth (Inserted v) g s) :
      p.wp growth (fun r g s => ∀ h, r = .ok h → i.Gives h g s) g s :=
    wp_mono (fun r g s hr h heq => ⟨v, hv, hr h heq⟩) hp
  have document (d : DocumentId) : Lasting fun _ s => d.index < s.documents.size :=
    fun _ _ _ _ h _ hext => Nat.lt_of_lt_of_le h hext.documents
  have arena (h : Handle) : Lasting fun _ s => h.arena.statements.index < s.lists.size :=
    fun _ _ _ _ h _ hext => Nat.lt_of_lt_of_le h hext.lists
  have failed (fault : Fault) (g : Progress Store) (s : Store) :
      ∀ h, (.error fault : Except Fault Handle) = .ok h → i.Gives h g s :=
    fun h heq => by cases heq
  cases i with
  | addRule d r => exact given rfl (wp_documentInsert hready rfl)
  | addBuild d b => exact given rfl (wp_documentInsert hready rfl)
  | addPool d p => exact given rfl (wp_documentInsert hready rfl)
  | rule d name command =>
      refine wp_tame_bind (document d) (tame_ruleMake _ _ _) hready
        (fun fault g s _ => failed fault g s) fun r g s hd => ?_
      exact given ⟨r, rfl⟩ (wp_documentInsert hd rfl)
  | phony d outputs =>
      refine wp_tame_bind (document d) (tame_member _ _) hready
        (fun fault g s _ => failed fault g s) fun rule g s hd => ?_
      refine wp_tame_bind (document d) (tame_buildMake _ _ _) hd
        (fun fault g s _ => failed fault g s) fun b g s hd => ?_
      exact given ⟨b, rfl⟩ (wp_documentInsert hd rfl)
  | pool d name depth =>
      refine wp_tame_bind (document d) (tame_poolMake _ _ _ _) hready
        (fun fault g s _ => failed fault g s) fun p g s hd => ?_
      exact given ⟨p, rfl⟩ (wp_documentInsert hd rfl)
  | buildBy h outputs =>
      refine wp_tame_bind (arena h) (tame_handleStatements h) hready
        (fun fault g s _ => failed fault g s) fun place g s hh => ?_
      refine wp_tame_bind (arena h) (tame_member _ _) hh
        (fun fault g s _ => failed fault g s) fun ownership g s hh => ?_
      refine wp_tame_bind (arena h) (tame_buildMake _ _ _) hh
        (fun fault g s _ => failed fault g s) fun b g s hh => ?_
      exact given ⟨b, rfl⟩ (wp_handleInsert hh rfl)
  | ruleBy h name command =>
      refine wp_tame_bind (arena h) (tame_handleStatements h) hready
        (fun fault g s _ => failed fault g s) fun place g s hh => ?_
      refine wp_tame_bind (arena h) (tame_member _ _) hh
        (fun fault g s _ => failed fault g s) fun ownership g s hh => ?_
      refine wp_tame_bind (arena h) (tame_ruleMake _ _ _) hh
        (fun fault g s _ => failed fault g s) fun r g s hh => ?_
      refine wp_tame_bind (arena h) (tame_usePool _ _) hh
        (fun fault g s _ => failed fault g s) fun _ g s hh => ?_
      exact given ⟨r, rfl⟩ (wp_handleInsert hh rfl)

end Script.Insertion

/-! ## Runs -/

namespace Script.Operation

/-- An insertion has something to insert into; all other operations can always be tried. -/
def Ready (op : Operation) (s : Store) : Prop :=
  match op with
  | .insert i => i.Ready s
  | _ => True

instance (op : Operation) (s : Store) : Decidable (op.Ready s) := by
  unfold Ready
  split <;> infer_instance

/-- How an operation may end: an insertion that gives a handle gives the right one. -/
def Ends (op : Operation) (r : Except Fault Value) (g : Progress Store) (s : Store) : Prop :=
  ∀ i h, op = .insert i → r = .ok (.object (.handle h)) → i.Gives h g s

theorem abides_makesDocument {op : Operation} (h : op.makesDocument = true) :
    Abides op.program := by
  cases op with
  | make c args named =>
      cases c with
      | document =>
          refine abides_bind (abides_ofExcept _) fun args => ?_
          change Abides (Class.construct .document args)
          rw [Class.construct.eq_def]
          split
          · exact abides_bind (abides_documentMake _) fun _ => abides_tame (tame_pure _)
          all_goals first | contradiction | exact abides_tame (tame_fail rfl)
      | _ => cases h
  | build b =>
      refine abides_bind (abides_build b) fun r => ?_
      exact abides_bind (abides_ofExcept _) fun _ => abides_tame (tame_pure _)
  | call | get | compare | ordinal | iterate | load | source | hold | insert => cases h

theorem wp_program {op : Operation} {g : Progress Store} {s : Store} (hready : op.Ready s) :
    op.program.wp growth op.Ends g s := by
  by_cases hmakes : op.makesDocument = false
  · by_cases hinsert : ∃ i, op = .insert i
    · obtain ⟨i, rfl⟩ := hinsert
      change (i.program >>= fun h => Pure.pure h.toValue).wp growth _ g s
      rw [wp_bind]
      refine wp_mono ?_ (Insertion.wp_program hready)
      intro r g s hr
      cases r with
      | error fault => exact fun j h _ heq => by cases heq
      | ok h =>
          intro j h' hj heq
          cases hj
          cases heq
          exact hr h rfl
    · refine wp_mono ?_ (wp_tame lasting_true (tame_program hmakes) trivial)
      exact fun r g s _ i h heq => absurd ⟨i, heq⟩ hinsert
  · refine wp_mono ?_ (abides_makesDocument (by simpa using hmakes) g s)
    rintro r g s - i h rfl
    exact absurd rfl hmakes

end Script.Operation

/-- One thing that can happen: a thread makes a call, or a call goes on by one step. -/
inductive Move where
  | start (t : ThreadId) (op : Operation)
  | step (i : Nat)

namespace System

def next (sys : System Operation) : Move → System Operation
  | .start t op => if op.Ready sys.store then sys.start t op op.program else sys
  | .step i => sys.step i

def run (sys : System Operation) (moves : List Move) : System Operation := moves.foldl next sys

/-- Nothing has been made or called yet. -/
def idle (files : FileTree) : System Operation := ⟨.ofFiles files, []⟩

section Growing

variable {κ : Type} {ends : κ → Except Fault Value → Progress Store → Store → Prop}
  {sys : System κ}

/-- The store is sound, and every call still stands by the terms of growth. -/
structure Growing (ends : κ → Except Fault Value → Progress Store → Store → Prop)
    (sys : System κ) : Prop where
  sound : sys.store.Sound
  stands : ∀ task ∈ sys.tasks, task.Stands growth (ends task.call) sys.store

private theorem extends_of_moved {trail : List (Store × Store)} {s s' : Store}
    (h : Task.Moved growth trail s s') : s.Extends s' := by
  cases h with
  | same => exact .refl s
  | guard lock g => exact extends_setGuard s lock g
  | act h => exact h

theorem growing_step (h : sys.Growing ends) (i : Nat) :
    (sys.step i).Growing ends ∧ sys.store.Extends (sys.step i).store := by
  rw [step]
  split
  · exact ⟨h, .refl _⟩
  · next task htask =>
      have hmem := List.mem_of_getElem? htask
      obtain ⟨hstands, hsound, hmoved⟩ :=
        (h.stands task hmem).advance steady_growth h.sound fun _ _ _ => trivial
      have hext := extends_of_moved hmoved
      refine ⟨⟨hsound, ?_⟩, hext⟩
      intro other hother
      rcases List.mem_or_eq_of_mem_set hother with hold | rfl
      · exact (h.stands other hold).rely steady_growth hext
      · rw [Task.call_advance]
        exact hstands

theorem growing_start (h : sys.Growing ends) {t : ThreadId} {call : κ} {p : Action Value}
    (hp : p.wp growth (ends call) .start sys.store) : (sys.start t call p).Growing ends := by
  refine ⟨h.sound, fun task hmem => ?_⟩
  rcases List.mem_append.mp hmem with hold | hnew
  · exact h.stands task hold
  · obtain rfl := List.mem_singleton.mp hnew
    exact Task.stands_start steady_growth h.sound hp t call

end Growing

theorem growing_idle (files : FileTree) : (idle files).Growing Operation.Ends where
  sound := sound_ofFiles files
  stands _ hmem := absurd hmem List.not_mem_nil

theorem growing_next {sys : System Operation} (h : sys.Growing Operation.Ends) (move : Move) :
    (sys.next move).Growing Operation.Ends ∧ sys.store.Extends (sys.next move).store := by
  cases move with
  | step i => exact growing_step h i
  | start t op =>
      rw [next]
      split
      · next hready => exact ⟨growing_start h (Operation.wp_program hready), .refl _⟩
      · exact ⟨h, .refl _⟩

theorem growing_run {sys : System Operation} (h : sys.Growing Operation.Ends)
    (moves : List Move) :
    (sys.run moves).Growing Operation.Ends ∧ sys.store.Extends (sys.run moves).store := by
  induction moves generalizing sys with
  | nil => exact ⟨h, .refl _⟩
  | cons move rest ih =>
      obtain ⟨hnext, hext⟩ := growing_next h move
      obtain ⟨hrun, hmore⟩ := ih hnext
      exact ⟨hrun, hext.trans hmore⟩

/-- Whatever has happened and whatever happens then: what was in a list is still at the
front of it; and a handle that an insertion has given leads to the value that this very
insertion has put there, whenever the list can be read. -/
theorem run_stable (files : FileTree) (moves more : List Move) :
    let sys := (idle files).run moves
    let later := sys.run more
    (∀ l, (sys.store.list l).items <+: (later.store.list l).items) ∧
    ∀ task ∈ sys.tasks, ∀ i h, task.call = .insert i →
      task.outcome? = some (.ok (.object (.handle h))) →
      ∃ v k, i.Inserts v ∧ (v, k) ∈ added h.arena.statements task.progress.trail ∧
        h.index = (k : Int) ∧
        ∀ t, match (later.store.guard (.list h.arena.statements)).request t .read with
          | .entered _ => (Task.runAlone t h.statement later.store).1 = .done v
          | .refused fault _ =>
              (Task.runAlone t h.statement later.store).1 = .failed (.borrow fault)
          | .waits _ => ∃ next, (Task.runAlone t h.statement later.store).1 =
              .waiting (.list h.arena.statements) .read next := by
  intro sys later
  obtain ⟨hsys, -⟩ := growing_run (growing_idle files) moves
  obtain ⟨-, hmore⟩ := growing_run hsys more
  refine ⟨hmore.items, ?_⟩
  intro task hmem i h hcall hdone
  obtain ⟨s₀, hext, hends⟩ := (hsys.stands task hmem).outcome hdone
  obtain ⟨v, hinserts, hleads, k, hindex, hholds⟩ := hends i h hcall rfl
  refine ⟨v, k, hinserts, hholds.mine, hindex, fun t => ?_⟩
  exact (hleads.mono (hext.trans hmore)).runAlone_statement t

end System

end NinjaFile
