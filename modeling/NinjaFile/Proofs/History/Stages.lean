import NinjaFile.Proofs.History.Guarding
import NinjaFile.Proofs.History.Visits

/-!
# How far a call is

A call on a list goes through stages: it takes the items that it is to write, it gets into
the guard, it does at once what it is there for, and it leaves.  Calls that are about
something else leave the items of the list alone all the time.
-/

namespace NinjaFile.History

open Program Store

variable {l : ListId}

/-! ## What is done to a list -/

/-- A step that leaves a list alone. -/
def Spares (l : ListId) (f : Store → Store) : Prop :=
  ∀ s : Store, l.index < s.lists.size →
    l.index < (f s).lists.size ∧ (f s).list l = s.list l

theorem Spares.minds {f : Store → Store} (h : Spares l f) : Minds l f :=
  fun s known => (h s known).imp id (congrArg GuardedList.guard)

theorem spares_aside {f : Store → Store} (h : Aside f) : Spares l f := by
  intro s known
  obtain ⟨logging, sources, heq⟩ := h s
  rw [heq]
  exact ⟨known, rfl⟩

theorem spares_append {l' : ListId} (ne : l' ≠ l) (items : List Value) :
    Spares l fun s => s.modifyList l' (·.append items) := by
  intro s known
  rw [size_modifyList, list_modifyList, if_neg fun both => ne both.1]
  exact ⟨known, rfl⟩

theorem minds_append (l' : ListId) (items : List Value) :
    Minds l fun s => s.modifyList l' (·.append items) := by
  intro s known
  rw [size_modifyList, list_modifyList]
  exact ⟨known, by split <;> rfl⟩

theorem spares_makeWith (made : GuardedList) (attributes : List (String × Value)) :
    Spares l fun s =>
      let (id, s) := s.insertList made
      (s.assignAll (.list id) attributes).assignAll (.guard (.list id)) attributes := by
  intro s known
  dsimp only
  rw [assignAll_eq, assignAll_eq]
  refine ⟨?_, (list_insertList s made l).trans (if_neg (Nat.ne_of_lt known))⟩
  change l.index < (s.lists.insert made).size
  rw [Table.size_insert]
  exact Nat.lt_succ_of_lt known

section

variable {P : (Store → Store) → Prop} {α : Type}

theorem disciplined_gathers (aside : ∀ f, Aside f → P f) {p : Action α} {held : Option (LockId × Mode)}
    (h : p.Disciplined Aside Inert held) : p.Disciplined P (fun _ => True) held :=
  h.mono aside fun _ _ => trivial

theorem disciplined_onList (aside : ∀ f, Aside f → P f) {l' : ListId} {deed : ListDeed}
    (append : deed.writes → ∀ items : List Value, P fun s => s.modifyList l' (·.append items))
    (make : ∀ (made : GuardedList) (attributes : List (String × Value)), P fun s =>
      let (id, s) := s.insertList made
      (s.assignAll (.list id) attributes).assignAll (.guard (.list id)) attributes)
    (items : List Value) : (deed.onList l' items).Disciplined P (fun _ => True) none := by
  have after {α β : Type} {p : Action α} (h : p.Gathers) (f : α → β) :
      (p >>= fun a => return f a).Disciplined P (fun _ => True) none :=
    disciplined_bind (disciplined_gathers aside h) fun _ => rfl
  have write {α β : Type} {p : Action α} (h : p.Swift fun f => P f ∧ True) (f : α → β) :
      (guarded (.list l') .write p >>= fun a => return f a).Disciplined P (fun _ => True) none :=
    disciplined_bind (disciplined_guarded _ _ h) fun _ => rfl
  cases deed with
  | add v => exact write (swift_update ⟨append rfl [v], trivial⟩) _
  | extend v => exact write (swift_modify ⟨append rfl items, trivial⟩) _
  | snapshot => exact after (gathers_snapshot l') .tuple
  | iterate => exact after (gathers_snapshot l') .list
  | length => exact after (gathers_length l') fun n => Value.int n
  | truth => exact after (gathers_length l') fun n => Value.bool (0 < n)
  | item index => exact disciplined_gathers aside (gathers_item l' index)
  | adopt ownership =>
      refine disciplined_bind (p := l'.adopt ownership) ?_ fun _ => rfl
      refine disciplined_bind (disciplined_gathers aside (gathers_read _)) fun own => ?_
      split
      · rfl
      · refine disciplined_bind (disciplined_gathers aside (gathers_snapshot l')) fun items => ?_
        refine disciplined_bind (disciplined_gathers aside (gathers_read _)) fun blocking => ?_
        refine disciplined_bind (disciplined_ofExcept _) fun ownership => ?_
        exact disciplined_update (make _ _)

theorem disciplined_hold (lock : LockId) (mode : Mode) (outcome : Except Fault Value) :
    (guarded lock mode (Program.ofExcept outcome) : Action Value).Disciplined P (fun _ => True) none :=
  disciplined_guarded lock mode (swift_ofExcept outcome)

end

/-- What a call does to the list, if that is what it is about. -/
def Call.deed? (l : ListId) : Call → Option ListDeed
  | .use l' deed => if l' = l ∧ deed.asksGuard then some deed else none
  | .hold .. => none

theorem Call.deed?_eq_some {c : Call} {deed : ListDeed} :
    c.deed? l = some deed ↔ c = .use l deed ∧ deed.asksGuard := by
  cases c with
  | hold lock mode outcome => simp [deed?]
  | use l' other =>
      simp only [deed?]
      split
      · next both =>
          obtain ⟨rfl, asks⟩ := both
          simp only [Option.some.injEq, use.injEq, true_and]
          exact ⟨fun h => ⟨h, h ▸ asks⟩, fun h => h.1⟩
      · next neither =>
          simp only [reduceCtorEq, use.injEq, false_iff]
          rintro ⟨⟨rfl, rfl⟩, asks⟩
          exact neither ⟨rfl, asks⟩

theorem Call.minds (c : Call) : c.program.Disciplined (Minds l) (fun _ => True) none := by
  cases c with
  | hold lock mode outcome => exact disciplined_hold lock mode outcome
  | use l' deed =>
      refine disciplined_bind (disciplined_gathers (fun _ h => (spares_aside h).minds) deed.gathers_offer)
        fun items => ?_
      exact disciplined_onList (fun _ h => (spares_aside h).minds) (fun _ => minds_append l')
        (fun made attributes => (spares_makeWith made attributes).minds) items

theorem Call.spares {c : Call} (h : c.deed? l = none) :
    c.program.Disciplined (Spares l) (fun _ => True) none := by
  cases c with
  | hold lock mode outcome => exact disciplined_hold lock mode outcome
  | use l' deed =>
      refine disciplined_bind (disciplined_gathers (fun _ => spares_aside) deed.gathers_offer)
        fun items => ?_
      refine disciplined_onList (fun _ => spares_aside) (fun writes => ?_) spares_makeWith items
      refine spares_append ?_
      rintro rfl
      rw [deed?] at h
      cases deed with
      | add | extend => simp [ListDeed.asksGuard] at h
      | _ => cases writes

/-! ## What calls have written -/

/-- What some steps have written to a list. -/
def wrote (l : ListId) (trail : List (Store × Store)) : List Value :=
  trail.flatMap fun step => (step.2.list l).items.drop (step.1.list l).items.length

theorem wrote_note (l : ListId) (trail : List (Store × Store)) (s s' : Store) :
    wrote l (trail ++ [(s, s')]) = wrote l trail ++ (s'.list l).items.drop (s.list l).items.length := by
  simp [wrote]

theorem wrote_same {trail : List (Store × Store)} {s s' : Store}
    (h : (s'.list l).items = (s.list l).items) : wrote l (trail ++ [(s, s')]) = wrote l trail := by
  simp [wrote_note, h]

/-! ## What calls have taken -/

/-- A guard is asked for to read only; apart from that nothing is said. -/
def looking : Terms Store :=
  ⟨fun _ => True, fun _ _ _ => True, fun _ _ _ => True, fun _ _ _ mode => mode = .read, True⟩

theorem taken_append {v : Value} {trail : List (Store × Store)} {items : List Value}
    (h : taken v trail = some items) (more : List (Store × Store)) :
    taken v (trail ++ more) = some items := by
  rw [taken] at h ⊢
  cases trail with
  | cons step rest => exact h
  | nil => split at h <;> first | exact h | cases h

theorem offers_append {deed : ListDeed} {items : List Value} {trail : List (Store × Store)}
    (h : deed.Offers items trail) (more : List (Store × Store)) :
    deed.Offers items (trail ++ more) := by
  cases deed with
  | extend v => exact taken_append h more
  | _ => exact h

theorem wp_close {J : Progress Store → Prop} (keeps : ∀ {g s s'}, J g → J (g.note s s'))
    (id : SourceId) {g : Progress Store} (h : J g) (s : Store) :
    id.close.wp looking (fun _ g _ => J g) g s := by
  rw [SourceId.close, wp_read_bind]
  refine fun s₁ _ _ => ⟨trivial, trivial, ?_⟩
  have h₁ : J (g.note s₁ s₁) := keeps h
  split
  · exact h₁
  · refine fun s₂ _ _ => ⟨trivial, trivial, fun s₃ _ _ => ⟨trivial, trivial, ?_⟩⟩
    split <;> exact keeps (keeps h₁)

/-- What iterating a value gives has been taken at the first step. -/
theorem wp_iterate (v : Value) (s : Store) :
    v.iterate.wp looking (fun r g _ => ∀ items, r = .ok items → taken v g.trail = some items)
      .start s := by
  rw [Value.iterate]
  cases hv : v.items with
  | plain given =>
      intro items heq
      rw [taken, hv, ← Except.ok.inj heq]
  | none => exact fun items heq => by cases heq
  | list m =>
      simp only
      rw [ListId.snapshot, wp_guarded]
      refine fun s' _ _ => ⟨rfl, ?_, fun _ fault items heq => by cases heq⟩
      rw [wp_read]
      refine fun s'' _ _ => ⟨trivial, trivial, fun items heq => ?_⟩
      rw [taken, hv, ← Except.ok.inj heq]
      rfl
  | source id =>
      simp only
      rw [wp_bind, SourceId.takeItems, wp_update]
      refine fun s' _ _ => ⟨trivial, trivial, ?_⟩
      rw [goOn, wp_bind, wp_ofExcept]
      cases state : (s'.source id).state with
      | closing =>
          dsimp only
          rw [state]
          exact fun items heq => by cases heq
      | ready | finished =>
          dsimp only
          rw [state]
          rw [goOn, wp_bind]
          refine wp_mono ?_
            (wp_close (J := fun g => taken v g.trail = some (s'.source id).items)
              (fun h => taken_append h _) id ?_ _)
          · intro r g s'' h
            cases r with
            | error fault => exact fun items heq => by cases heq
            | ok _ => exact fun items heq => Except.ok.inj heq ▸ h
          · rw [taken, hv]
            rfl

theorem wp_offer (deed : ListDeed) (s : Store) :
    deed.offer.wp looking (fun r g _ => ∀ items, r = .ok items → deed.Offers items g.trail)
      .start s := by
  cases deed with
  | extend v => exact wp_iterate v s
  | _ => exact fun items heq => (Except.ok.inj heq).symm

end NinjaFile.History
