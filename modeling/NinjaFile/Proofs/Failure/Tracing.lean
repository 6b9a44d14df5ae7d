import NinjaFile.Proofs.Document.Content
import NinjaFile.Proofs.Program.Among
import NinjaFile.Proofs.Sharing.Calls
import NinjaFile.Proofs.Store.Alike

/-!
# Steps that leave no trace

A call may make new things on its way, and add to the lists that it has made itself, without
anybody else noticing.  What was there before is as it was after such steps, whatever others
do in between; that is what a call leaves behind that fails before it has begun to do what it
is for.
-/

namespace NinjaFile

open Program Store
open Sharing (MadeList)

/-! ## Steps -/

namespace Store

/-- Everything that there was is as it was, except for the lists that `own` tells of. -/
structure Spares (own : ListId → Prop) (s s' : Store) : Prop where
  size : s.lists.size ≤ s'.lists.size
  list : ∀ l, l.index < s.lists.size → ¬ own l → s'.list l = s.list l
  nodes : ∀ n, s.HasNode n → s'.HasNode n
  fields : ∀ n, s.HasNode n → s'.fields n = s.fields n
  part : ∀ n, s.HasNode n → ∀ q, s'.part n q = s.part n q
  documents : s'.documents = s.documents
  serial : s.serial ≤ s'.serial
  assigned : ∀ i name, s.Knows i ∨ name = "kind" → s'.assigned? i name = s.assigned? i name

namespace Spares

variable {own other : ListId → Prop} {s s' : Store}

theorem of_adds (h : s.Adds s') : Spares own s s' where
  size := h.lists
  list l hl _ := h.list l hl
  nodes _ := h.hasNode
  fields _ := h.fields
  part _ hn := h.part hn
  documents := h.documents
  serial := h.serial
  assigned i name _ := by rw [assigned?, assigned?, h.assigned]

theorem mono (h : Spares own s s') (more : ∀ l, own l → other l) : Spares other s s' :=
  { h with list := fun l hl hother => h.list l hl fun hown => hother (more l hown) }

theorem append {l : ListId} (hl : own l) (items : List Value) :
    Spares own s (s.modifyList l (·.append items)) where
  size := Nat.le_of_eq (size_modifyList ..).symm
  list j _ hj := by
    rw [list_modifyList, if_neg]
    rintro ⟨rfl, -⟩
    exact hj hl
  nodes n hn := by cases n <;> exact hn
  fields n _ := by cases n <;> rfl
  part n _ q := by cases n <;> cases q <;> rfl
  documents := rfl
  serial := Nat.le_refl _
  assigned _ _ _ := rfl

theorem assignAll (h : Spares own s s') {i : Identity} (hi : ¬ s.Knows i)
    {attributes : List (String × Value)} (kinds : ∀ a ∈ attributes, a.1 ≠ "kind") :
    Spares own s (s'.assignAll i attributes) := by
  have assigned (j : Identity) (name : String) (known : s.Knows j ∨ name = "kind") :
      (s'.assignAll i attributes).assigned? j name = s.assigned? j name := by
    refine Eq.trans ?_ (h.assigned j name known)
    rcases assigned?_assignAll i j attributes name (s := s') with same | ⟨v, hv, -⟩
    · exact same
    · rcases known with known | rfl
      · refine assigned?_assignAll_of_ne ?_ attributes name
        rintro rfl
        exact hi known
      · exact absurd rfl (kinds _ hv)
  rw [assignAll_eq] at assigned ⊢
  exact { h with
    nodes := fun n hn => by
      have := h.nodes n hn
      cases n <;> exact this
    fields := fun n hn => by
      rw [← h.fields n hn]
      cases n <;> rfl
    part := fun n hn q => by
      rw [← h.part n hn q]
      cases n <;> cases q <;> rfl
    assigned := assigned }

theorem knows (h : Spares own s s') {i : Identity} (hi : s.Knows i) : s'.Knows i := by
  cases i with
  | list l | arena l => exact Nat.lt_of_lt_of_le hi h.size
  | document d =>
      refine Nat.lt_of_lt_of_eq hi ?_
      rw [h.documents]
  | rule r => exact h.nodes (.rule r) hi
  | build b => exact h.nodes (.build b) hi
  | pool p => exact h.nodes (.pool p) hi
  | serial n => exact Nat.lt_of_lt_of_le hi h.serial
  | guard _ | source _ | ownership _ | kind _ => trivial

end Spares

/-- What has been made since some moment has the kind that it was made with. -/
structure Since (s₀ s : Store) : Prop where
  known : ∀ i, s₀.Knows i → s.Knows i
  kinds : ∀ i, ¬ s₀.Knows i → s.assigned? i "kind" = none

end Store

/-- Nothing that was there before a step has changed by it, apart from lists that earlier
steps have made; all steps are later than some moment. -/
inductive Traceless (s₀ : Store) : List (Store × Store) → Prop where
  | nil : Traceless s₀ []
  | note {trail : List (Store × Store)} {s s' : Store} (h : Traceless s₀ trail)
      (since : s₀.Since s) (spares : Spares (MadeList trail) s s') :
      Traceless s₀ (trail ++ [(s, s')])

namespace Traceless

variable {s₀ : Store} {trail : List (Store × Store)}

private theorem every {P : Store × Store → Prop} (h : Traceless s₀ trail)
    (hP : ∀ before s s', Traceless s₀ before → s₀.Since s → Spares (MadeList before) s s' →
      P (s, s')) : ∀ step ∈ trail, P step := by
  induction h with
  | nil => exact fun _ hmem => absurd hmem List.not_mem_nil
  | note before since spares ih =>
      intro step hmem
      rcases List.mem_append.mp hmem with hold | hnew
      · exact ih step hold
      · obtain rfl := List.mem_singleton.mp hnew
        exact hP _ _ _ before since spares

/-- What there was at that moment has not been made by a later step. -/
theorem not_madeList (h : Traceless s₀ trail) {l : ListId} (hl : s₀.Knows (.list l)) :
    ¬ MadeList trail l := by
  rintro ⟨step, hmem, new, -⟩
  refine h.every (P := fun step => ¬ step.1.lists.size ≤ l.index) (fun _ s _ _ since _ => ?_) step
    hmem new
  exact Nat.not_le.mpr (since.known _ hl)

theorem list_eq (h : Traceless s₀ trail) {l : ListId} (hl : s₀.Knows (.list l)) :
    ∀ step ∈ trail, step.2.list l = step.1.list l :=
  h.every fun _ _ _ before since spares => spares.list l (since.known _ hl) (before.not_madeList hl)

theorem partValue_eq (h : Traceless s₀ trail) {n : Node} (hn : s₀.HasNode n) (q : Part) :
    ∀ step ∈ trail, step.2.partValue n q = step.1.partValue n q := by
  refine h.every fun _ s s' _ since spares => ?_
  have known : s.Knows n.identity := since.known _ ((knows_identity s₀ n).mpr hn)
  rw [partValue, partValue, spares.assigned _ _ (.inl known),
    spares.part n ((knows_identity s n).mp known)]

theorem documents_eq (h : Traceless s₀ trail) :
    ∀ step ∈ trail, step.2.documents = step.1.documents :=
  h.every fun _ _ _ _ _ spares => spares.documents

end Traceless

/-- What others have left alone is as it was: each list, what each statement has for its lists,
and the documents. -/
structure Spared (env : Store → Store → Prop) (s s' : Store) : Prop where
  items : ∀ l, l.index < s.lists.size → (∀ a b, env a b → (b.list l).items = (a.list l).items) →
    (s'.list l).items = (s.list l).items
  ownership : ∀ l, l.index < s.lists.size →
    (∀ a b, env a b → (b.list l).ownership = (a.list l).ownership) →
    (s'.list l).ownership = (s.list l).ownership
  parts : ∀ n q, s.HasNode n → (∀ a b, env a b → b.partValue n q = a.partValue n q) →
    s'.partValue n q = s.partValue n q
  documents : (∀ a b, env a b → b.documents = a.documents) → s'.documents = s.documents

theorem Traceless.spared {κ : Type} {env : Store → Store → Prop} {s s' : Store} {t : ThreadId}
    {call : κ} {p : Action Value} {task : Task κ} (h : Traceless s task.progress.trail)
    (run : Task.Among env (.start t call p) s task s') : Spared env s s' where
  items l hl others := run.view_eq (fun s => (s.list l).items) (fun _ _ _ => items_setGuard ..)
    others fun step hmem => congrArg GuardedList.items (h.list_eq hl step hmem)
  ownership l hl others := run.view_eq (fun s => (s.list l).ownership)
    (fun _ _ _ => ownership_setGuard ..) others fun step hmem =>
      congrArg GuardedList.ownership (h.list_eq hl step hmem)
  parts n q hn others := run.view_eq (fun s => s.partValue n q)
    (fun s lock g => (Alike.setGuard s lock g).partValue_eq n q) others
    (h.partValue_eq hn q)
  documents others := run.view_eq Store.documents (fun _ _ _ => documents_setGuard ..) others
    h.documents_eq

/-! ## Terms with those who heed nothing -/

/-- A step that lets what is known last, and puts nothing in the place of kinds. -/
def Steadfast (f : Store → Store) : Prop :=
  ∀ s, (∀ i, s.Knows i → (f s).Knows i) ∧ ∀ i, (f s).assigned? i "kind" = s.assigned? i "kind"

theorem Steadfast.since {f : Store → Store} (h : Steadfast f) {s₀ s : Store} (since : s₀.Since s) :
    s₀.Since (f s) where
  known i hi := (h s).1 i (since.known i hi)
  kinds i hi := ((h s).2 i).trans (since.kinds i hi)

/-- A step that changes nothing that there was. -/
def Mild (f : Store → Store) : Prop := ∀ s, Spares (fun _ => False) s (f s)

theorem Mild.steadfast {f : Store → Store} (h : Mild f) : Steadfast f :=
  fun s => ⟨fun _ => (h s).knows, fun i => (h s).assigned i "kind" (.inr rfl)⟩

/-- Others do what they like, as long as they let things be and do not tamper with the kind
of what has been made since the start. -/
def heedless (s₀ : Store) : Terms Store where
  inv := s₀.Since
  rely _ _ _ := True
  keeps _ _ _ := True
  enters _ _ _ _ := True
  refuses := True

theorem steady_heedless (s₀ : Store) : (heedless s₀).Steady where
  refl _ _ _ := trivial
  trans _ _ _ _ _ _ := trivial
  inv_setGuard s lock g h := by
    have same : (s.setGuard lock g).assigned = s.assigned := assigned_setGuard s lock g
    refine ⟨fun i hi => ?_, fun i hi => ?_⟩
    · have known := h.known i hi
      have size := size_setGuard s lock g
      cases lock <;> cases i <;> first | exact known | (simp only [Knows, size]; exact known)
    · rw [assigned?, same]
      exact h.kinds i hi
  rely_setGuard _ _ _ _ _ := trivial

/-! ## Programs that leave no trace -/

section Treads

variable {s₀ : Store} {α β : Type}

/-- From a trail like this the program leaves no trace, however it ends, and if it gives
something it does so with a trail like that. -/
def Treads (s₀ : Store) (J : List (Store × Store) → Prop) (p : Action α)
    (Q : α → List (Store × Store) → Prop) : Prop :=
  ∀ g s, Traceless s₀ g.trail → J g.trail → p.wp (heedless s₀)
    (fun r g _ => Traceless s₀ g.trail ∧ ∀ a, r = .ok a → Q a g.trail) g s

/-- What lasts however long a trail gets. -/
def Enduring (J : List (Store × Store) → Prop) : Prop := ∀ trail step, J trail → J (trail ++ [step])

variable {J : List (Store × Store) → Prop} {Q : α → List (Store × Store) → Prop}
  {R : β → List (Store × Store) → Prop}

theorem enduring_true : Enduring fun _ => True := fun _ _ _ => trivial

theorem enduring_made (l : ListId) : Enduring fun trail => MadeList trail l :=
  fun _ _ ⟨step, mem, range⟩ => ⟨step, List.mem_append_left _ mem, range⟩

theorem Enduring.and {J K : List (Store × Store) → Prop} (hJ : Enduring J) (hK : Enduring K) :
    Enduring fun trail => J trail ∧ K trail :=
  fun trail step h => ⟨hJ trail step h.1, hK trail step h.2⟩

theorem treads_bind {p : Action α} {k : α → Action β} (hp : Treads s₀ J p Q)
    (hk : ∀ a, Treads s₀ (Q a) (k a) R) : Treads s₀ J (p >>= k) R := by
  intro g s clean hJ
  rw [wp_bind]
  refine wp_mono ?_ (hp g s clean hJ)
  rintro (fault | a) g s ⟨clean, hQ⟩
  · exact ⟨clean, fun _ h => by cases h⟩
  · exact hk a g s clean (hQ a rfl)

theorem treads_pure (a : α) (h : ∀ trail, J trail → Q a trail) :
    Treads s₀ J (Pure.pure a) Q :=
  fun g _ clean hJ => ⟨clean, fun _ heq => Except.ok.inj heq ▸ h g.trail hJ⟩

theorem treads_update {f : Store → α × Store}
    (h : ∀ trail s, s₀.Since s → J trail →
      Spares (MadeList trail) s (f s).2 ∧ Q (f s).1 (trail ++ [(s, (f s).2)])) :
    Treads s₀ J (.update f) Q := by
  intro g s clean hJ
  rw [wp_update]
  intro s' _ since
  obtain ⟨spares, hQ⟩ := h g.trail s' since hJ
  refine ⟨trivial, ⟨fun i hi => spares.knows (since.known i hi), fun i hi => ?_⟩,
    clean.note since spares, fun _ heq => Except.ok.inj heq ▸ hQ⟩
  exact (spares.assigned i "kind" (.inr rfl)).trans (since.kinds i hi)

/-- What takes mild steps only leaves no trace. -/
theorem treads_mild (enduring : Enduring J) {p : Action α} (h : p.Every Mild) :
    Treads s₀ J p fun _ => J := by
  intro g s clean hJ
  refine wp_mono (Q := fun _ g _ => Traceless s₀ g.trail ∧ J g.trail)
    (fun _ _ _ h => ⟨h.1, fun _ _ => h.2⟩) (wp_of_every _ ?_ ?_ ?_ h ⟨clean, hJ⟩)
  · rintro f g s s' hf ⟨clean, hJ⟩ - since
    exact ⟨trivial, hf.steadfast.since since,
      clean.note since ((hf s').mono fun _ no => no.elim), enduring _ _ hJ⟩
  · exact fun _ _ _ _ _ h _ _ => ⟨trivial, h, h⟩
  · exact fun _ _ _ _ h => h

theorem treads_guarded (enduring : Enduring J) {l : ListId} {f : Store → α × Store}
    (appends : ∀ s, ∃ items, (f s).2 = s.modifyList l (·.append items)) (mode : Mode) :
    Treads s₀ (fun trail => J trail ∧ MadeList trail l) (.guarded (.list l) mode (.update f))
      fun _ => J := by
  intro g s clean hJ
  rw [wp_guarded]
  intro s₁ _ _
  refine ⟨trivial, ?_, fun _ _ => ⟨clean, fun _ h => by cases h⟩⟩
  have update : Treads s₀ (fun trail => J trail ∧ MadeList trail l) (.update f) fun _ => J := by
    refine treads_update fun trail s _ hJ => ?_
    obtain ⟨items, heq⟩ := appends s
    rw [heq]
    exact ⟨.append hJ.2 items, enduring _ _ hJ.1⟩
  exact wp_mono (fun _ _ _ h => h) (update (g.enter _ _) s₁ clean hJ)

theorem treads_add (enduring : Enduring J) (l : ListId) (v : Value) :
    Treads s₀ (fun trail => J trail ∧ MadeList trail l) (l.add v) fun _ => J :=
  treads_guarded enduring (fun _ => ⟨[v], rfl⟩) .write

theorem treads_extend (enduring : Enduring J) (l : ListId) (items : List Value) :
    Treads s₀ (fun trail => J trail ∧ MadeList trail l) (l.extend items) fun _ => J :=
  treads_guarded enduring (f := fun s => ((), s.modifyList l (·.append items)))
    (fun _ => ⟨items, rfl⟩) .write

theorem treads_make (enduring : Enduring J) (ownership : Ownership) (blocking : Bool)
    (items : List Value) : Treads s₀ J (ListId.make ownership blocking items)
      fun l trail => J trail ∧ MadeList trail l := by
  refine treads_update fun trail s _ hJ => ⟨.of_adds (adds_insertList s _), enduring _ _ hJ, ?_⟩
  exact ⟨_, List.mem_append_right _ (List.mem_singleton_self _), Nat.le_refl _,
    by simp [insertList]⟩

end Treads

/-! ## Programs that are past refusing -/

/-- The fault says that something given could not be used: a value has no text or no items,
an iterable has failed, or a handle leads to a statement of another kind. -/
def Fault.rejects : Fault → Bool
  | .unconvertible _ | .undecodable _ | .notIterable _ | .raised _ | .sourceBusy
  | .wrongKind .. => true
  | _ => false

section Settles

variable {s₀ : Store} {α β : Type} {J : List (Store × Store) → Prop}
  {Q : α → List (Store × Store) → Prop}

/-- From here on nothing is rejected. -/
def Settles (s₀ : Store) (p : Action α) : Prop :=
  ∀ g s, p.wp (heedless s₀) (fun r _ _ => ∀ fault, r = .error fault → fault.rejects = false) g s

/-- If something is rejected then no trace is left. -/
def Careful (s₀ : Store) (J : List (Store × Store) → Prop) (p : Action α) : Prop :=
  ∀ g s, Traceless s₀ g.trail → J g.trail → p.wp (heedless s₀)
    (fun r g _ => ∀ fault, r = .error fault → fault.rejects → Traceless s₀ g.trail) g s

theorem settles_bind {p : Action α} {k : α → Action β} (hp : Settles s₀ p)
    (hk : ∀ a, Settles s₀ (k a)) : Settles s₀ (p >>= k) := by
  intro g s
  rw [wp_bind]
  refine wp_mono ?_ (hp g s)
  rintro (fault | a) g s h
  · exact fun _ heq => by
      cases heq
      exact h fault rfl
  · exact hk a g s

/-- The program takes steadfast steps, and fails for other reasons than what was given. -/
structure Orderly (p : Action α) : Prop where
  every : p.Every Steadfast
  fails : p.FailsOnly fun fault => fault.rejects = false

theorem Orderly.settles {p : Action α} (h : Orderly p) : Settles s₀ p := by
  obtain ⟨every, fails⟩ := h
  intro g s
  induction p generalizing g s with
  | pure a => exact fun _ heq => by cases heq
  | fail fault => exact fun _ heq => Except.error.inj heq ▸ fails
  | act f next ih =>
      intro s' _ since
      exact ⟨trivial, every.1.since since, ih s' (every.2 s') (fails s') _ _⟩
  | enter lock mode next ih =>
      intro s' _ _
      exact ⟨trivial, ih none (every none) (fails none) _ _,
        fun _ fault => ih (some fault) (every _) (fails _) _ _⟩
  | leave lock mode next ih => exact ih every fails _ _
  | call request next ih => exact ih every fails _ _

section Orderly

theorem orderly_pure (a : α) : Orderly (Pure.pure a : Action α) := ⟨trivial, trivial⟩

theorem orderly_fail {fault : Fault} (h : fault.rejects = false) :
    Orderly (.fail fault : Action α) := ⟨trivial, h⟩

theorem orderly_bind {p : Action α} {k : α → Action β} (hp : Orderly p)
    (hk : ∀ a, Orderly (k a)) : Orderly (p >>= k) :=
  ⟨every_bind hp.every fun a => (hk a).every, failsOnly_bind hp.fails fun a => (hk a).fails⟩

theorem orderly_ofExcept {r : Except Fault α} (h : ∀ fault, r = .error fault → fault.rejects = false) :
    Orderly (Program.ofExcept r) := ⟨every_ofExcept r, failsOnly_ofExcept h⟩

theorem orderly_update {f : Store → α × Store} (h : Steadfast fun s => (f s).2) :
    Orderly (.update f) := ⟨every_update h, fun _ => trivial⟩

theorem orderly_modify {f : Store → Store} (h : Steadfast f) : Orderly (.modify f) :=
  ⟨every_modify h, fun _ => trivial⟩

theorem orderly_read (f : Store → α) : Orderly (Action.read f) :=
  ⟨⟨fun _ => ⟨fun _ => id, fun _ => rfl⟩, fun _ => trivial⟩, fun _ => trivial⟩

theorem orderly_guarded {body : Action α} (lock : LockId) (mode : Mode) (h : Orderly body) :
    Orderly (.guarded lock mode body) :=
  ⟨every_guarded lock mode h.every, failsOnly_guarded lock mode h.fails fun _ => rfl⟩

end Orderly

theorem Settles.careful {p : Action α} (h : Settles s₀ p) : Careful s₀ J p := by
  intro g s _ _
  refine wp_mono ?_ (h g s)
  intro r g s settled fault heq rejects
  rw [settled fault heq] at rejects
  cases rejects

theorem careful_bind {p : Action α} {k : α → Action β} (hp : Treads s₀ J p Q)
    (hk : ∀ a, Careful s₀ (Q a) (k a)) : Careful s₀ J (p >>= k) := by
  intro g s clean hJ
  rw [wp_bind]
  refine wp_mono ?_ (hp g s clean hJ)
  rintro (fault | a) g s ⟨clean, hQ⟩
  · exact fun _ _ _ => clean
  · exact hk a g s clean (hQ a rfl)

theorem Careful.bind {p : Action α} {k : α → Action β} (hp : Careful s₀ J p)
    (hk : ∀ a, Settles s₀ (k a)) : Careful s₀ J (p >>= k) := by
  intro g s clean hJ
  rw [wp_bind]
  refine wp_mono ?_ (hp g s clean hJ)
  rintro (fault | a) g s h
  · exact fun _ heq => by
      cases heq
      exact h fault rfl
  · refine wp_mono ?_ (hk a g s)
    intro r g s settled fault heq rejects
    rw [settled fault heq] at rejects
    cases rejects

end Settles

end NinjaFile
