import NinjaFile.Program

/-!
# Programs among others

What can be said of a program while other threads go on between its steps.  Two notions
are kept apart: `Every` speaks of the acts of a program one by one and of nothing else,
and `wp` follows a program through the states that its own acts and those of the others
lead to.
-/

namespace NinjaFile

/-! ## What a thread has done so far -/

/-- The changes a thread has made in one call, the oldest first, and the guards it is in. -/
structure Progress (σ : Type) where
  trail : List (σ × σ)
  inside : List (LockId × Mode)

namespace Progress

variable {σ : Type}

def start : Progress σ := ⟨[], []⟩

/-- One more change, from a state to another. -/
def note (g : Progress σ) (before after : σ) : Progress σ :=
  { g with trail := g.trail ++ [(before, after)] }

def enter (g : Progress σ) (lock : LockId) (mode : Mode) : Progress σ :=
  { g with inside := (lock, mode) :: g.inside }

def leave (g : Progress σ) (lock : LockId) (mode : Mode) : Progress σ :=
  { g with inside := g.inside.erase (lock, mode) }

@[simp] theorem trail_start : (start : Progress σ).trail = [] := rfl

@[simp] theorem inside_start : (start : Progress σ).inside = [] := rfl

@[simp] theorem trail_note (g : Progress σ) (before after : σ) :
    (g.note before after).trail = g.trail ++ [(before, after)] := rfl

@[simp] theorem inside_note (g : Progress σ) (before after : σ) :
    (g.note before after).inside = g.inside := rfl

@[simp] theorem trail_enter (g : Progress σ) (lock : LockId) (mode : Mode) :
    (g.enter lock mode).trail = g.trail := rfl

@[simp] theorem inside_enter (g : Progress σ) (lock : LockId) (mode : Mode) :
    (g.enter lock mode).inside = (lock, mode) :: g.inside := rfl

@[simp] theorem trail_leave (g : Progress σ) (lock : LockId) (mode : Mode) :
    (g.leave lock mode).trail = g.trail := rfl

@[simp] theorem inside_leave (g : Progress σ) (lock : LockId) (mode : Mode) :
    (g.leave lock mode).inside = g.inside.erase (lock, mode) := rfl

end Progress

namespace Program

variable {σ ρ α β : Type}

/-! ## Acts one by one -/

/-- Every act of a program is of a certain kind, whatever the program gets to see. -/
def Every (P : (σ → σ) → Prop) : Program σ ρ α → Prop
  | .pure _ => True
  | .fail _ => True
  | .act f next => P f ∧ ∀ s, (next s).Every P
  | .enter _ _ next => ∀ r, (next r).Every P
  | .leave _ _ next => next.Every P
  | .call _ next => next.Every P

section Every

variable {P Q : (σ → σ) → Prop}

theorem every_pure (a : α) : (Pure.pure a : Program σ ρ α).Every P := trivial

theorem every_fail (fault : Fault) : (Program.fail fault : Program σ ρ α).Every P := trivial

theorem every_bind {p : Program σ ρ α} {k : α → Program σ ρ β} (hp : p.Every P)
    (hk : ∀ a, (k a).Every P) : (p >>= k).Every P := by
  rw [bind_eq]
  induction p with
  | pure a => exact hk a
  | fail fault => trivial
  | act f next ih => exact ⟨hp.1, fun s => ih s (hp.2 s)⟩
  | enter lock mode next ih => exact fun r => ih r (hp r)
  | leave lock mode next ih => exact ih hp
  | call request next ih => exact ih hp

theorem every_attempt {p : Program σ ρ α} (hp : p.Every P) : p.attempt.Every P := by
  induction p with
  | pure a => trivial
  | fail fault => trivial
  | act f next ih => exact ⟨hp.1, fun s => ih s (hp.2 s)⟩
  | enter lock mode next ih => exact fun r => ih r (hp r)
  | leave lock mode next ih => exact ih hp
  | call request next ih => exact ih hp

theorem every_ofExcept (r : Except Fault α) : (ofExcept r : Program σ ρ α).Every P := by
  cases r <;> trivial

theorem every_modify {f : σ → σ} (hf : P f) : (modify f : Program σ ρ Unit).Every P :=
  ⟨hf, fun _ => trivial⟩

theorem every_update {f : σ → α × σ} (hf : P fun s => (f s).2) :
    (update f : Program σ ρ α).Every P :=
  ⟨hf, fun _ => trivial⟩

theorem every_request (r : ρ) : (request r : Program σ ρ Unit).Every P := trivial

theorem every_guarded {body : Program σ ρ α} (lock : LockId) (mode : Mode)
    (hbody : body.Every P) : (guarded lock mode body).Every P := by
  intro r
  cases r with
  | some fault => trivial
  | none =>
      refine every_bind (every_attempt hbody) fun r => ?_
      exact every_ofExcept r

theorem Every.mono (h : ∀ f, P f → Q f) {p : Program σ ρ α} (hp : p.Every P) : p.Every Q := by
  induction p with
  | pure a => trivial
  | fail fault => trivial
  | act f next ih => exact ⟨h f hp.1, fun s => ih s (hp.2 s)⟩
  | enter lock mode next ih => exact fun r => ih r (hp r)
  | leave lock mode next ih => exact ih hp
  | call request next ih => exact ih hp

end Every

/-! ## Steps among those of others -/

/-- What a thread can count on and has to stand by, in every state that satisfies `inv`:
the others change the state only as `rely` says, each act of its own changes it only as
`keeps` says, and it asks only for the guards that `enters` allows. -/
structure Terms (σ : Type) where
  inv : σ → Prop
  rely : List (σ × σ) → σ → σ → Prop
  keeps : List (σ × σ) → σ → σ → Prop
  enters : Progress σ → σ → LockId → Mode → Prop
  /-- Whether a guard may be refused. -/
  refuses : Prop

/-- From here on the program stands by its terms, and it ends only as `Q` says. -/
def wp (T : Terms σ) (Q : Except Fault α → Progress σ → σ → Prop) :
    Program σ ρ α → Progress σ → σ → Prop
  | .pure a, g, s => Q (.ok a) g s
  | .fail fault, g, s => Q (.error fault) g s
  | .act f next, g, s => ∀ s', T.rely g.trail s s' → T.inv s' →
      T.keeps g.trail s' (f s') ∧ T.inv (f s') ∧
        (next s').wp T Q (g.note s' (f s')) (f s')
  | .enter lock mode next, g, s => ∀ s', T.rely g.trail s s' → T.inv s' →
      T.enters g s' lock mode ∧ (next none).wp T Q (g.enter lock mode) s' ∧
        (T.refuses → ∀ fault, (next (some fault)).wp T Q g s')
  | .leave lock mode next, g, s => next.wp T Q (g.leave lock mode) s
  | .call _ next, g, s => next.wp T Q g s

section Wp

variable {T : Terms σ} {Q R : Except Fault α → Progress σ → σ → Prop}

@[simp] theorem wp_pure (a : α) (g : Progress σ) (s : σ) :
    (Pure.pure a : Program σ ρ α).wp T Q g s ↔ Q (.ok a) g s := Iff.rfl

@[simp] theorem wp_fail (fault : Fault) (g : Progress σ) (s : σ) :
    (Program.fail fault : Program σ ρ α).wp T Q g s ↔ Q (.error fault) g s := Iff.rfl

theorem wp_mono (h : ∀ r g s, Q r g s → R r g s) {p : Program σ ρ α} {g : Progress σ} {s : σ}
    (hp : p.wp T Q g s) : p.wp T R g s := by
  induction p generalizing g s with
  | pure a => exact h _ _ _ hp
  | fail fault => exact h _ _ _ hp
  | act f next ih =>
      intro s' hrely hinv
      obtain ⟨hkeeps, hafter, hnext⟩ := hp s' hrely hinv
      exact ⟨hkeeps, hafter, ih s' hnext⟩
  | enter lock mode next ih =>
      intro s' hrely hinv
      obtain ⟨henters, hnone, hsome⟩ := hp s' hrely hinv
      exact ⟨henters, ih none hnone, fun hr fault => ih (some fault) (hsome hr fault)⟩
  | leave lock mode next ih => exact ih hp
  | call request next ih => exact ih hp

/-- What has to hold where a first part ends for a second part to go on from there. -/
def goOn (T : Terms σ) (Q : Except Fault β → Progress σ → σ → Prop) (k : α → Program σ ρ β) :
    Except Fault α → Progress σ → σ → Prop
  | .ok a, g, s => (k a).wp T Q g s
  | .error fault, g, s => Q (.error fault) g s

theorem wp_bind {Q : Except Fault β → Progress σ → σ → Prop} (p : Program σ ρ α)
    (k : α → Program σ ρ β) (g : Progress σ) (s : σ) :
    (p >>= k).wp T Q g s ↔ p.wp T (goOn T Q k) g s := by
  rw [bind_eq]
  induction p generalizing g s with
  | pure a => exact Iff.rfl
  | fail fault => exact Iff.rfl
  | act f next ih => simp only [act_bind, wp, ih]
  | enter lock mode next ih => simp only [enter_bind, wp, ih]
  | leave lock mode next ih => exact ih _ _
  | call request next ih => exact ih _ _

theorem wp_attempt {Q : Except Fault (Except Fault α) → Progress σ → σ → Prop}
    (p : Program σ ρ α) (g : Progress σ) (s : σ) :
    p.attempt.wp T Q g s ↔ p.wp T (fun r => Q (.ok r)) g s := by
  induction p generalizing g s with
  | pure a => exact Iff.rfl
  | fail fault => exact Iff.rfl
  | act f next ih => simp only [attempt, wp, ih]
  | enter lock mode next ih => simp only [attempt, wp, ih]
  | leave lock mode next ih => exact ih _ _
  | call request next ih => exact ih _ _

@[simp] theorem wp_ofExcept (r : Except Fault α) (g : Progress σ) (s : σ) :
    (ofExcept r : Program σ ρ α).wp T Q g s ↔ Q r g s := by
  cases r <;> exact Iff.rfl

theorem wp_update (f : σ → α × σ) (g : Progress σ) (s : σ) :
    (update f : Program σ ρ α).wp T Q g s ↔
      ∀ s', T.rely g.trail s s' → T.inv s' →
        T.keeps g.trail s' (f s').2 ∧ T.inv (f s').2 ∧
          Q (.ok (f s').1) (g.note s' (f s').2) (f s').2 :=
  Iff.rfl

/-- Inside a guard the body goes on; it leaves the guard however it ends. -/
theorem wp_guarded (lock : LockId) (mode : Mode) (body : Program σ ρ α) (g : Progress σ) (s : σ) :
    (guarded lock mode body).wp T Q g s ↔
      ∀ s', T.rely g.trail s s' → T.inv s' →
        T.enters g s' lock mode ∧
          body.wp T (fun r g s => Q r (g.leave lock mode) s) (g.enter lock mode) s' ∧
          (T.refuses → ∀ fault, Q (.error (.borrow fault)) g s') := by
  have inner (g : Progress σ) (s : σ) :
      (body.thenLeave lock mode).wp T Q g s ↔
        body.wp T (fun r g s => Q r (g.leave lock mode) s) g s := by
    rw [thenLeave, ← bind_eq, wp_bind, wp_attempt]
    have same : (fun r => goOn T Q (fun r => leave lock mode (ofExcept r : Program σ ρ α)) (.ok r)) =
        fun r g s => Q r (g.leave lock mode) s := by
      funext r g s
      exact propext (wp_ofExcept r _ s)
    rw [same]
  simp only [guarded, wp, inner]

theorem wp_of_every {P : (σ → σ) → Prop} (J : Progress σ → σ → Prop)
    (act : ∀ f g s s', P f → J g s → T.rely g.trail s s' → T.inv s' →
      T.keeps g.trail s' (f s') ∧ T.inv (f s') ∧ J (g.note s' (f s')) (f s'))
    (enter : ∀ g s s' lock mode, J g s → T.rely g.trail s s' → T.inv s' →
      T.enters g s' lock mode ∧ J (g.enter lock mode) s' ∧ J g s')
    (leave : ∀ g s lock mode, J g s → J (g.leave lock mode) s)
    {p : Program σ ρ α} (hp : p.Every P) {g : Progress σ} {s : σ} (hJ : J g s) :
    p.wp T (fun _ => J) g s := by
  induction p generalizing g s with
  | pure a => exact hJ
  | fail fault => exact hJ
  | act f next ih =>
      intro s' hrely hinv
      obtain ⟨hkeeps, hafter, hJ'⟩ := act f g s s' hp.1 hJ hrely hinv
      exact ⟨hkeeps, hafter, ih s' (hp.2 s') hJ'⟩
  | enter lock mode next ih =>
      intro s' hrely hinv
      obtain ⟨henters, hin, hout⟩ := enter g s s' lock mode hJ hrely hinv
      exact ⟨henters, ih none (hp none) hin, fun _ fault => ih (some fault) (hp _) hout⟩
  | leave lock mode next ih => exact ih hp (leave g s lock mode hJ)
  | call request next ih => exact ih hp hJ

end Wp

end Program

end NinjaFile
