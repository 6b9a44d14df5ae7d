import NinjaFile.GuardedList
import NinjaFile.Proofs.Lock.Free
import NinjaFile.Proofs.Program.Logic
import NinjaFile.Proofs.Store.Reading
import NinjaFile.Subscript

/-!
# Actions without others

What an action does when no other thread is about.  A guard that nobody is in admits
everyone and is found as before when it has been left, so that an operation on such a
list comes down to what it does to the items.
-/

namespace NinjaFile

open Program Store

variable {α β : Type}

/-! ## Putting actions together -/

namespace Program

theorem run_bind {σ ρ τ : Type} [Guarded σ] (t : ThreadId) (serve : ρ → σ × τ → σ × τ)
    (p : Program σ ρ α) (k : α → Program σ ρ β) (m : σ × τ) :
    (p.bind k).run t serve m =
      match p.run t serve m with
      | (.done a, m) => (k a).run t serve m
      | (.failed fault, m) => (.failed fault, m)
      | (.waiting lock mode next, m) => (.waiting lock mode fun r => (next r).bind k, m) := by
  induction p generalizing m with
  | pure a => rfl
  | fail fault => rfl
  | act f next ih => exact ih m.1 _
  | enter lock mode next ih =>
      obtain ⟨s, x⟩ := m
      simp only [enter_bind, run]
      cases (Guarded.guard s lock).request t mode with
      | entered g => exact ih none _
      | refused fault g => exact ih (some fault) _
      | waits g => rfl
  | leave lock mode next ih => exact ih _
  | call request next ih => exact ih _

private theorem run_attempt {σ ρ τ : Type} [Guarded σ] (t : ThreadId)
    (serve : ρ → σ × τ → σ × τ) (p : Program σ ρ α) (m : σ × τ) :
    p.attempt.run t serve m =
      match p.run t serve m with
      | (.done a, m) => (.done (.ok a), m)
      | (.failed fault, m) => (.done (.error fault), m)
      | (.waiting lock mode next, m) => (.waiting lock mode fun r => (next r).attempt, m) := by
  induction p generalizing m with
  | pure a => rfl
  | fail fault => rfl
  | act f next ih => exact ih m.1 _
  | enter lock mode next ih =>
      obtain ⟨s, x⟩ := m
      simp only [attempt, run]
      cases (Guarded.guard s lock).request t mode with
      | entered g => exact ih none _
      | refused fault g => exact ih (some fault) _
      | waits g => rfl
  | leave lock mode next ih => exact ih _
  | call request next ih => exact ih _

end Program

namespace Action

@[simp] theorem alone_pure (a : α) (s : Store) : (Pure.pure a : Action α).alone s = (.ok a, s) :=
  rfl

@[simp] theorem alone_fail (fault : Fault) (s : Store) :
    alone (Program.fail fault : Action α) s = (.error fault, s) := rfl

theorem alone_bind (p : Action α) (k : α → Action β) (s : Store) :
    (p >>= k).alone s =
      match p.alone s with
      | (.ok a, s) => (k a).alone s
      | (.error fault, s) => (.error fault, s) := by
  rw [bind_eq, alone, alone, run_bind]
  cases hrun : p.run 0 (fun _ m => m) (s, ()) with
  | mk pause m => cases pause <;> rfl

theorem alone_bind_ok {p : Action α} {a : α} {s s' : Store} (h : p.alone s = (.ok a, s'))
    (k : α → Action β) : (p >>= k).alone s = (k a).alone s' := by
  rw [alone_bind, h]

theorem alone_bind_return (p : Action α) (b : β) (s : Store) :
    ((p >>= fun _ => return b : Action β).alone s).2 = (p.alone s).2 := by
  rw [alone_bind]
  rcases p.alone s with ⟨_ | _, _⟩ <;> rfl

theorem alone_ofExcept (r : Except Fault α) (s : Store) :
    alone (ofExcept r) s = (r, s) := by
  cases r <;> rfl

theorem alone_read_bind (f : Store → α) (k : α → Action β) (s : Store) :
    (Action.read f >>= k).alone s = (k (f s)).alone s := rfl

theorem alone_read (f : Store → α) (s : Store) : (Action.read f).alone s = (.ok (f s), s) := rfl

theorem alone_update (f : Store → α × Store) (s : Store) :
    alone (update f) s = (.ok (f s).1, (f s).2) := rfl

theorem alone_modify (f : Store → Store) (s : Store) :
    alone (modify f) s = (.ok (), f s) := rfl

/-- If the action has an answer, then this is what it is and what it has done. -/
def Ensures (p : Action α) (s : Store) (Q : α → Store → Prop) : Prop :=
  ∀ a s', p.alone s = (.ok a, s') → Q a s'

variable {s : Store} {Q : α → Store → Prop} {R : β → Store → Prop}

theorem ensures_of_alone {p : Action α} {a : α} {s' : Store} (h : p.alone s = (.ok a, s'))
    (hQ : Q a s') : p.Ensures s Q := by
  intro b s'' hb
  rw [h, Prod.mk.injEq, Except.ok.injEq] at hb
  obtain ⟨rfl, rfl⟩ := hb
  exact hQ

theorem ensures_pure {a : α} (h : Q a s) : Ensures (Pure.pure a) s Q := ensures_of_alone rfl h

theorem ensures_bind {p : Action α} {k : α → Action β}
    (h : p.Ensures s fun a s => (k a).Ensures s R) : (p >>= k).Ensures s R := by
  intro b s' hb
  rw [alone_bind] at hb
  cases hp : p.alone s with
  | mk r after =>
      rw [hp] at hb
      cases r with
      | ok a => exact h a after hp b s' hb
      | error fault => cases hb

theorem ensures_mono {p : Action α} {Q' : α → Store → Prop} (h : p.Ensures s Q)
    (hQ : ∀ a s, Q a s → Q' a s) : p.Ensures s Q' :=
  fun a s' ha => hQ a s' (h a s' ha)

theorem ensures_then {p : Action α} {k : α → Action β} (h : p.Ensures s Q)
    (hk : ∀ a s, Q a s → (k a).Ensures s R) : (p >>= k).Ensures s R :=
  ensures_bind (ensures_mono h hk)

theorem alone_attempt {p : Action α} {r : Except Fault α} {s s' : Store}
    (h : p.alone s = (r, s')) (hr : r ≠ .error .stuck) : alone p.attempt s = (.ok r, s') := by
  rw [alone] at h ⊢
  rw [run_attempt]
  cases hrun : p.run 0 (fun _ m => m) (s, ()) with
  | mk pause m =>
      rw [hrun] at h
      cases pause with
      | done b =>
          cases h
          rfl
      | failed fault =>
          cases h
          rfl
      | waiting lock mode next =>
          cases h
          exact absurd rfl hr

theorem ensures_attempt {p : Action α} {Q : Except Fault α → Store → Prop}
    (h : p.Ensures s fun a s => Q (.ok a) s) (error : ∀ fault s, Q (.error fault) s) :
    Ensures p.attempt s Q := by
  intro r s' hr
  rw [alone, run_attempt] at hr
  cases hrun : p.run 0 (fun _ m => m) (s, ()) with
  | mk pause m =>
      rw [hrun] at hr
      cases pause with
      | done a =>
          cases hr
          refine h a m.1 ?_
          rw [alone, hrun]
      | failed fault =>
          cases hr
          exact error fault m.1
      | waiting lock mode next => cases hr

/-- The action has an answer, and this is what it is and what the action has done. -/
def Returns (p : Action α) (s : Store) (Q : α → Store → Prop) : Prop :=
  ∃ a s', p.alone s = (.ok a, s') ∧ Q a s'

theorem Returns.ensures {p : Action α} (h : p.Returns s Q) : p.Ensures s Q := by
  obtain ⟨a, s', heq, hQ⟩ := h
  exact ensures_of_alone heq hQ

theorem returns_of_alone {p : Action α} {a : α} {s' : Store} (h : p.alone s = (.ok a, s'))
    (hQ : Q a s') : p.Returns s Q := ⟨a, s', h, hQ⟩

theorem returns_pure {a : α} (h : Q a s) : Returns (Pure.pure a) s Q := returns_of_alone rfl h

theorem returns_mono {p : Action α} {Q' : α → Store → Prop} (h : p.Returns s Q)
    (hQ : ∀ a s, Q a s → Q' a s) : p.Returns s Q' := by
  obtain ⟨a, s', heq, ha⟩ := h
  exact ⟨a, s', heq, hQ a s' ha⟩

theorem returns_bind {p : Action α} {k : α → Action β}
    (h : p.Returns s fun a s => (k a).Returns s R) : (p >>= k).Returns s R := by
  obtain ⟨a, s', heq, b, s'', hk, hR⟩ := h
  exact ⟨b, s'', (alone_bind_ok heq k).trans hk, hR⟩

theorem returns_then {p : Action α} {k : α → Action β} (h : p.Returns s Q)
    (hk : ∀ a s, Q a s → (k a).Returns s R) : (p >>= k).Returns s R :=
  returns_bind (returns_mono h hk)

theorem of_returns_pure {b : β} (h : Returns (Pure.pure b) s R) : R b s := by
  obtain ⟨_, _, heq, hR⟩ := h
  cases heq
  exact hR

theorem returns_of_bind {p : Action α} {k : α → Action β} (h : (p >>= k).Returns s R) :
    p.Returns s fun a s' => (k a).Returns s' R := by
  obtain ⟨b, s', heq, hR⟩ := h
  rw [alone_bind] at heq
  cases hp : p.alone s with
  | mk r s₁ =>
      rw [hp] at heq
      cases r with
      | ok a => exact ⟨a, s₁, hp, b, s', heq, hR⟩
      | error fault => cases heq

theorem returns_attempt {p : Action α} (h : p.Returns s Q) :
    Returns p.attempt s fun r s' => ∃ a, r = .ok a ∧ Q a s' := by
  obtain ⟨a, s', heq, hQ⟩ := h
  exact ⟨.ok a, s', alone_attempt heq nofun, a, rfl, hQ⟩

/-- The action fails with a fault. -/
def Fails (p : Action α) (s : Store) (fault : Fault) : Prop :=
  ∃ s', p.alone s = (.error fault, s')

theorem fails_fail (fault : Fault) : Fails (Program.fail fault : Action α) s fault := ⟨s, rfl⟩

theorem Fails.bind {p : Action α} {fault : Fault} (h : p.Fails s fault) (k : α → Action β) :
    (p >>= k).Fails s fault := by
  obtain ⟨s', heq⟩ := h
  exact ⟨s', by rw [alone_bind, heq]⟩

theorem Returns.fails {p : Action α} {k : α → Action β} {fault : Fault} (h : p.Returns s Q)
    (hk : ∀ a s, Q a s → (k a).Fails s fault) : (p >>= k).Fails s fault := by
  obtain ⟨a, s', heq, hQ⟩ := h
  obtain ⟨s'', failed⟩ := hk a s' hQ
  exact ⟨s'', (alone_bind_ok heq k).trans failed⟩

theorem Fails.attempt {p : Action α} {fault : Fault} (h : p.Fails s fault)
    (goes : fault ≠ .stuck) : Returns p.attempt s fun r _ => r = .error fault := by
  obtain ⟨s', heq⟩ := h
  exact ⟨.error fault, s', alone_attempt heq fun same => goes (Except.error.inj same), rfl⟩

/-- What every act does to a store, and entering and leaving as well, the whole action
does. -/
theorem alone_of_every {R : Store → Store → Prop} (refl : ∀ s, R s s)
    (trans : ∀ s₁ s₂ s₃, R s₁ s₂ → R s₂ s₃ → R s₁ s₃)
    (guard : ∀ s lock g, R s (s.setGuard lock g)) {p : Action α}
    (h : p.Every fun f => ∀ s, R s (f s)) (s : Store) : R s (p.alone s).2 := by
  have ran : R s (p.run 0 (fun _ m => m) (s, ())).2.1 := by
    induction p generalizing s with
    | pure a => exact refl s
    | fail fault => exact refl s
    | act f next ih => exact trans _ _ _ (h.1 s) (ih s (h.2 s) (f s))
    | enter lock mode next ih =>
        rw [run]
        cases (Guarded.guard s lock).request 0 mode with
        | entered g => exact trans _ _ _ (guard s lock g) (ih none (h none) _)
        | refused fault g => exact trans _ _ _ (guard s lock g) (ih (some fault) (h _) _)
        | waits g => exact guard s lock g
    | leave lock mode next ih => exact trans _ _ _ (guard s lock _) (ih h _)
    | call request next ih => exact ih h s
  rw [alone]
  cases hrun : p.run 0 (fun _ m => m) (s, ()) with
  | mk pause m =>
      rw [hrun] at ran
      cases pause <;> exact ran

end Action

/-! ## Guards of lists -/

namespace Table

theorem modify_modify (t : Table α) (i : Nat) (f g : α → α) :
    (t.modify i f).modify i g = t.modify i (g ∘ f) := by
  simp only [modify, Table.mk.injEq]
  refine Array.ext (by simp) fun j _ _ => ?_
  simp only [Array.getElem_modify]
  split <;> rfl

theorem modify_eq_self [Inhabited α] (t : Table α) (i : Nat) {f : α → α}
    (h : f (t.get i) = t.get i) : t.modify i f = t := by
  obtain ⟨entries⟩ := t
  simp only [modify, Table.mk.injEq]
  refine Array.ext (by simp) fun j hj hj' => ?_
  simp only [Array.getElem_modify]
  split
  · next hij =>
      subst hij
      simpa [get, get?, hj'] using h
  · rfl

end Table

namespace Store

theorem modifyList_modifyList (s : Store) (id : ListId) (f g : GuardedList → GuardedList) :
    (s.modifyList id f).modifyList id g = s.modifyList id (g ∘ f) := by
  simp [modifyList, Table.modify_modify]

theorem modifyList_eq_self {s : Store} {id : ListId} {f : GuardedList → GuardedList}
    (h : f (s.list id) = s.list id) : s.modifyList id f = s := by
  rw [modifyList, Table.modify_eq_self _ _ h]

end Store

namespace Action

/-- A body that does not look at the guard it is in does there what it does outside, if
nobody else is in. -/
theorem alone_guarded {s s' : Store} {id : ListId} (hid : id.index < s'.lists.size)
    (hfree : (s.list id).guard.Free) (same : (s'.list id).guard = (s.list id).guard)
    (mode : Mode) {body : Action α} {r : Except Fault α} (hr : r ≠ .error .stuck)
    (hbody : ∀ g, alone body (s.setGuard (.list id) g) = (r, s'.setGuard (.list id) g)) :
    alone (guarded (.list id) mode body) s = (r, s') := by
  obtain ⟨g, hrequest, hleave⟩ := hfree.request 0 mode
  have entered : alone (guarded (.list id) mode body) s =
      alone (body.thenLeave (.list id) mode) (s.setGuard (.list id) g) := by
    rw [guarded, alone, run, show Guarded.guard s (.list id) = (s.list id).guard from rfl, hrequest]
    rfl
  have attempted : alone body.attempt (s.setGuard (.list id) g) =
      (.ok r, s'.setGuard (.list id) g) := alone_attempt (hbody g) hr
  have left : (s'.setGuard (.list id) g).setGuard (.list id)
      (((s'.setGuard (.list id) g).list id).guard.leave 0 mode) = s' := by
    rw [list_setGuard, if_pos ⟨rfl, hid⟩]
    change (s'.modifyList id _).modifyList id _ = s'
    rw [modifyList_modifyList, hleave, ← same]
    exact modifyList_eq_self rfl
  rw [entered, thenLeave, ← bind_eq, alone_bind_ok attempted]
  change alone (ofExcept r) _ = _
  rw [alone_ofExcept]
  exact congrArg _ left

end Action

/-! ## Lists that nobody is in -/

/-- A list that is there and that nobody is in. -/
structure Store.Open (s : Store) (id : ListId) : Prop where
  known : id.index < s.lists.size
  free : (s.list id).guard.Free

namespace ListId

variable {s : Store} {id : ListId}

theorem setGuard_append (s : Store) (id : ListId) (g : Guard) (items : List Value) :
    (s.setGuard (.list id) g).modifyList id (·.append items) =
      (s.modifyList id (·.append items)).setGuard (.list id) g := by
  rw [setGuard, setGuard, modifyList_modifyList, modifyList_modifyList]
  rfl

theorem guard_append_eq (s : Store) (id : ListId) (items : List Value) :
    ((s.modifyList id (·.append items)).list id).guard = (s.list id).guard := by
  rw [list_modifyList]
  split <;> rfl

theorem alone_extend (h : s.Open id) (items : List Value) :
    (id.extend items).alone s = (.ok (), s.modifyList id (·.append items)) := by
  refine Action.alone_guarded ?_ h.free (guard_append_eq s id items) .write nofun fun g => ?_
  · rw [size_modifyList]
    exact h.known
  · rw [Action.alone_modify, setGuard_append]

theorem alone_add (h : s.Open id) (item : Value) :
    (id.add item).alone s = (.ok (s.list id).items.length, s.modifyList id (·.append [item])) := by
  refine Action.alone_guarded ?_ h.free (guard_append_eq s id [item]) .write nofun fun g => ?_
  · rw [size_modifyList]
    exact h.known
  · rw [Action.alone_update, setGuard_append, items_setGuard]

theorem alone_snapshot (h : s.Open id) : id.snapshot.alone s = (.ok (s.list id).items, s) := by
  refine Action.alone_guarded h.known h.free rfl .read nofun fun g => ?_
  rw [Action.alone_read, items_setGuard]

theorem alone_length (h : s.Open id) : id.length.alone s = (.ok (s.list id).items.length, s) := by
  refine Action.alone_guarded h.known h.free rfl .read nofun fun g => ?_
  rw [Action.alone_read, items_setGuard]

theorem alone_item (h : s.Open id) (index : Value) :
    (id.item index).alone s = (Value.listItem (s.list id).items index, s) := by
  refine Action.alone_guarded h.known h.free rfl .read (fun hstuck => ?_) fun g => ?_
  · rw [Value.listItem, Value.itemIn] at hstuck
    split at hstuck
    · cases hstuck
    · split at hstuck
      · cases hstuck
      · rw [Value.checkIndex] at hstuck
        split at hstuck <;> cases hstuck
  · rw [Action.alone_read_bind, items_setGuard, Action.alone_ofExcept]

end ListId

end NinjaFile
