import NinjaFile.Proofs.Frame.Terms
import NinjaFile.Proofs.Overlap.Changes

/-!
# Threads that take turns

A thread goes on until it ends, has to wait or has a source ended; only there do others come
in between.  So between two of its steps a thread finds the store as it has left it, and
where it gives way it finds one that has lost nothing.
-/

namespace NinjaFile.Overlap

open Store Program
open Housing (Good Assertion)

variable {α β : Type}

/-- What a thread is about: the statements that are kept, and what is known of all the steps
that it will have taken. -/
structure Setting where
  kept : Node → Prop
  given : List (Store × Store) → Prop

variable {c : Setting}

/-- Each step of the program from here on is fair, and it ends only as `Q` says, whatever
others do where it gives way. -/
def Behaves (c : Setting) (Q : Except Fault α → List (Store × Store) → Store → Prop) :
    Action α → List (Store × Store) → Store → Prop
  | .pure a, trail, s => Q (.ok a) trail s
  | .fail fault, trail, s => Q (.error fault) trail s
  | .act f next, trail, s => Good trail s → Neat c.kept s → c.given (trail ++ [(s, f s)]) →
      Fair c.kept s (f s) ∧ Behaves c Q (next s) (trail ++ [(s, f s)]) (f s)
  | .enter lock _ next, trail, s => Neat c.kept s →
      ∀ s', s.Alike s' ∨ (s.guard lock).isLocking ∧ Gentle c.kept s s' →
        ∀ r, Behaves c Q (next r) trail s'
  | .leave _ _ next, trail, s => ∀ s', s.Alike s' → Behaves c Q next trail s'
  | .call _ next, trail, s => ∀ s', Gentle c.kept s s' → Behaves c Q next trail s'

section

variable {Q R : Except Fault α → List (Store × Store) → Store → Prop}
  {trail : List (Store × Store)} {s : Store}

theorem behaves_mono (h : ∀ r trail s, Q r trail s → R r trail s) {p : Action α}
    (hp : Behaves c Q p trail s) : Behaves c R p trail s := by
  induction p generalizing trail s with
  | pure a => exact h _ _ _ hp
  | fail fault => exact h _ _ _ hp
  | act f next ih =>
      intro good neat given
      obtain ⟨fair, hnext⟩ := hp good neat given
      exact ⟨fair, ih s hnext⟩
  | enter lock mode next ih => exact fun neat s' others r => ih r (hp neat s' others r)
  | leave lock mode next ih => exact fun s' like => ih (hp s' like)
  | call request next ih => exact fun s' gentle => ih (hp s' gentle)

theorem behaves_bind {Q : Except Fault β → List (Store × Store) → Store → Prop} {p : Action α}
    {k : α → Action β} (hp : Behaves c R p trail s)
    (ok : ∀ a trail s, R (.ok a) trail s → Behaves c Q (k a) trail s)
    (error : ∀ fault trail s, R (.error fault) trail s → Q (.error fault) trail s) :
    Behaves c Q (p >>= k) trail s := by
  rw [bind_eq]
  induction p generalizing trail s with
  | pure a => exact ok _ _ _ hp
  | fail fault => exact error _ _ _ hp
  | act f next ih =>
      intro good neat given
      obtain ⟨fair, hnext⟩ := hp good neat given
      exact ⟨fair, ih s hnext⟩
  | enter lock mode next ih => exact fun neat s' others r => ih r (hp neat s' others r)
  | leave lock mode next ih => exact fun s' like => ih (hp s' like)
  | call request next ih => exact fun s' gentle => ih (hp s' gentle)

theorem behaves_attempt {Q : Except Fault (Except Fault α) → List (Store × Store) → Store → Prop}
    {p : Action α} (hp : Behaves c (fun r => Q (.ok r)) p trail s) :
    Behaves c Q p.attempt trail s := by
  induction p generalizing trail s with
  | pure a => exact hp
  | fail fault => exact hp
  | act f next ih =>
      intro good neat given
      obtain ⟨fair, hnext⟩ := hp good neat given
      exact ⟨fair, ih s hnext⟩
  | enter lock mode next ih => exact fun neat s' others r => ih r (hp neat s' others r)
  | leave lock mode next ih => exact fun s' like => ih (hp s' like)
  | call request next ih => exact fun s' gentle => ih (hp s' gentle)

theorem behaves_thenLeave {p : Action α} {lock : LockId} {mode : Mode}
    (hp : Behaves c (fun r trail s => ∀ s', s.Alike s' → Q r trail s') p trail s) :
    Behaves c Q (p.thenLeave lock mode) trail s := by
  refine behaves_bind (R := fun r trail s => ∃ outcome, r = .ok outcome ∧
    ∀ s', s.Alike s' → Q outcome trail s') (behaves_attempt ?_) ?_ ?_
  · exact behaves_mono (fun r _ _ h => ⟨r, rfl, h⟩) hp
  · rintro r trail s ⟨_, ⟨⟩, h⟩ s' like
    cases r <;> exact h s' like
  · rintro fault trail s ⟨_, ⟨⟩, -⟩

end

/-! ## Where programs lead -/

/-- From an assertion the program leads to another one, if it gives something. -/
def Does (c : Setting) (J : Assertion) (p : Action α) (Q : α → Assertion) : Prop :=
  ∀ trail s, J trail s → Behaves c (fun r trail s => ∀ x, r = .ok x → Q x trail s) p trail s

/-- The assertion outlasts every step, whoever takes it. -/
structure Lasting (c : Setting) (J : Assertion) : Prop where
  later : ∀ trail s s', J trail s → Gentle c.kept s s' → J trail s'
  note : ∀ trail s step, J trail s → J (trail ++ [step]) s

section

variable {J K : Assertion} {Q R : α → Assertion}

theorem Does.pre {p : Action α} (h : Does c J p Q) (pre : ∀ trail s, K trail s → J trail s) :
    Does c K p Q :=
  fun trail s hK => h trail s (pre _ _ hK)

theorem Does.post {p : Action α} (h : Does c J p Q) (post : ∀ x trail s, Q x trail s → R x trail s) :
    Does c J p R :=
  fun trail s hJ => behaves_mono (fun _ _ _ hQ x hx => post x _ _ (hQ x hx)) (h trail s hJ)

theorem does_pull {p : Action α} {fact : Prop} (h : fact → Does c J p Q) :
    Does c (fun trail s => J trail s ∧ fact) p Q :=
  fun trail s hJ => h hJ.2 trail s hJ.1

theorem does_exists {ι : Type} {P : ι → Assertion} {p : Action α} (h : ∀ i, Does c (P i) p Q) :
    Does c (fun trail s => ∃ i, P i trail s) p Q :=
  fun trail s ⟨i, hP⟩ => h i trail s hP

theorem does_pure {x : α} (h : ∀ trail s, J trail s → Q x trail s) : Does c J (Pure.pure x) Q :=
  fun _ _ hJ _ hx => Except.ok.inj hx ▸ h _ _ hJ

theorem does_fail (fault : Fault) : Does c J (Program.fail fault) Q :=
  fun _ _ _ _ h => nomatch h

theorem does_bind {Q : β → Assertion} {p : Action α} {k : α → Action β} (hp : Does c J p R)
    (hk : ∀ x, Does c (R x) (k x) Q) : Does c J (p >>= k) Q :=
  fun trail s hJ => behaves_bind (hp trail s hJ) (fun x trail s hR => hk x trail s (hR x rfl))
    fun _ _ _ _ _ h => nomatch h

theorem does_ofExcept {r : Except Fault α} (h : ∀ x, r = .ok x → ∀ trail s, J trail s → Q x trail s) :
    Does c J (ofExcept r) Q := by
  cases r with
  | ok x => exact does_pure (h x rfl)
  | error fault => exact does_fail fault

theorem does_update {f : Store → α × Store}
    (h : ∀ trail s, J trail s → Good trail s → Neat c.kept s → c.given (trail ++ [(s, (f s).2)]) →
      Fair c.kept s (f s).2 ∧ Q (f s).1 (trail ++ [(s, (f s).2)]) (f s).2) :
    Does c J (.update f) Q := by
  intro trail s hJ good neat given
  obtain ⟨fair, hQ⟩ := h trail s hJ good neat given
  exact ⟨fair, fun _ hx => Except.ok.inj hx ▸ hQ⟩

theorem does_modify {f : Store → Store} {Q : Unit → Assertion}
    (h : ∀ trail s, J trail s → Good trail s → Neat c.kept s → c.given (trail ++ [(s, f s)]) →
      Fair c.kept s (f s) ∧ Q () (trail ++ [(s, f s)]) (f s)) : Does c J (.modify f) Q :=
  does_update (f := fun s => ((), f s)) h

theorem does_read {f : Store → α}
    (h : ∀ trail s, J trail s → Good trail s → Neat c.kept s → Q (f s) (trail ++ [(s, s)]) s) :
    Does c J (Action.read f) Q :=
  does_update (f := fun s => (f s, s)) fun trail s hJ good neat _ =>
    ⟨.refl s, h trail s hJ good neat⟩

/-- While a guard is entered, others may come in between if it is one that is waited for. -/
theorem does_guarded {lock : LockId} {mode : Mode} {body : Action α}
    (enter : ∀ trail s s', J trail s → Neat c.kept s →
      s.Alike s' ∨ (s.guard lock).isLocking ∧ Gentle c.kept s s' → K trail s')
    (hbody : Does c K body R)
    (leave : ∀ x trail s s', R x trail s → s.Alike s' → Q x trail s') :
    Does c J (.guarded lock mode body) Q := by
  intro trail s hJ neat s' others r
  cases r with
  | some fault => exact fun _ h => nomatch h
  | none =>
      refine behaves_thenLeave (behaves_mono ?_ (hbody trail s' (enter _ _ _ hJ neat others)))
      exact fun r trail s hR s' like x hx => leave x _ _ _ (hR x hx) like

theorem does_attempt {p : Action α} (h : Does c J p Q) :
    Does c J p.attempt fun r trail s => ∀ x, r = .ok x → Q x trail s :=
  fun trail s hJ => behaves_attempt
    (behaves_mono (fun _ _ _ hQ _ hr => Except.ok.inj hr ▸ hQ) (h trail s hJ))

/-! ## What lasts -/

theorem Lasting.alike (h : Lasting c J) {trail : List (Store × Store)} {s s' : Store}
    (hJ : J trail s) (like : s.Alike s') : J trail s' := h.later _ _ _ hJ (.of_alike like)

theorem Lasting.step (h : Lasting c J) {trail : List (Store × Store)} {s s' : Store}
    (hJ : J trail s) (gentle : Gentle c.kept s s') : J (trail ++ [(s, s')]) s' :=
  h.note _ _ _ (h.later _ _ _ hJ gentle)

theorem Lasting.and (hJ : Lasting c J) (hK : Lasting c K) :
    Lasting c fun trail s => J trail s ∧ K trail s :=
  ⟨fun _ _ _ h gentle => ⟨hJ.later _ _ _ h.1 gentle, hK.later _ _ _ h.2 gentle⟩,
    fun _ _ _ h => ⟨hJ.note _ _ _ h.1, hK.note _ _ _ h.2⟩⟩

theorem lasting_true : Lasting c fun _ _ => True := ⟨fun _ _ _ _ _ => trivial, fun _ _ _ _ => trivial⟩

theorem Lasting.does_guarded {lock : LockId} {mode : Mode} {body : Action α} (h : Lasting c J)
    (hbody : Does c J body R) (leave : ∀ x trail s s', R x trail s → s.Alike s' → Q x trail s') :
    Does c J (.guarded lock mode body) Q :=
  Overlap.does_guarded (fun _ _ _ hJ _ others => others.elim (h.alike hJ) fun other =>
    h.later _ _ _ hJ other.2) hbody leave

/-- A step that is fair wherever it is taken. -/
def Harmless (kept : Node → Prop) (f : Store → Store) : Prop := ∀ s, Fair kept s (f s)

theorem does_every {p : Action α} (lasting : Lasting c J) (h : p.Every (Harmless c.kept)) :
    Does c J p fun _ => J := by
  have go (p : Action α) (h : p.Every (Harmless c.kept)) (trail : List (Store × Store)) (s : Store)
      (hJ : J trail s) : Behaves c (fun _ => J) p trail s := by
    induction p generalizing trail s with
    | pure a => exact hJ
    | fail fault => exact hJ
    | act f next ih =>
        intro _ _ _
        have fair := h.1 s
        exact ⟨fair, ih s (h.2 s) _ _ (lasting.step hJ fair.gentle)⟩
    | enter lock mode next ih =>
        rintro _ s' (like | ⟨-, gentle⟩) r
        · exact ih r (h r) _ _ (lasting.alike hJ like)
        · exact ih r (h r) _ _ (lasting.later _ _ _ hJ gentle)
    | leave lock mode next ih => exact fun s' like => ih h _ _ (lasting.alike hJ like)
    | call request next ih => exact fun s' gentle => ih h _ _ (lasting.later _ _ _ hJ gentle)
  exact fun trail s hJ => behaves_mono (fun _ _ _ hJ _ _ => hJ) (go p h trail s hJ)

theorem does_frame {P : Assertion} (lasting : Lasting c P) {p : Action α} (h : Does c J p Q) :
    Does c (fun trail s => J trail s ∧ P trail s) p fun x trail s => Q x trail s ∧ P trail s := by
  have frame {R : Except Fault α → Assertion} (p : Action α) (trail : List (Store × Store))
      (s : Store) (hp : Behaves c R p trail s) (hP : P trail s) :
      Behaves c (fun r trail s => R r trail s ∧ P trail s) p trail s := by
    induction p generalizing trail s with
    | pure a => exact ⟨hp, hP⟩
    | fail fault => exact ⟨hp, hP⟩
    | act f next ih =>
        intro good neat given
        obtain ⟨fair, hnext⟩ := hp good neat given
        exact ⟨fair, ih s _ _ hnext (lasting.step hP fair.gentle)⟩
    | enter lock mode next ih =>
        rintro neat s' others r
        refine ih r _ _ (hp neat s' others r) ?_
        exact others.elim (lasting.alike hP) fun h => lasting.later _ _ _ hP h.2
    | leave lock mode next ih => exact fun s' like => ih _ _ (hp s' like) (lasting.alike hP like)
    | call request next ih => exact fun s' gentle => ih _ _ (hp s' gentle) (lasting.later _ _ _ hP gentle)
  rintro trail s ⟨hJ, hP⟩
  exact behaves_mono (fun _ _ _ ⟨hQ, hP⟩ x hx => ⟨hQ x hx, hP⟩) (frame p trail s (h trail s hJ) hP)

theorem does_along {P : Assertion} (lasting : Lasting c P) {p : Action α}
    (pre : ∀ trail s, P trail s → J trail s) (h : Does c J p Q) :
    Does c P p fun x trail s => Q x trail s ∧ P trail s :=
  (does_frame lasting h).pre fun trail s hP => ⟨pre trail s hP, hP⟩

end

end NinjaFile.Overlap
