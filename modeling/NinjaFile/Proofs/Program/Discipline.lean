import NinjaFile.Proofs.Program.Logic

/-!
# Discipline of programs

What a program never does, whatever it gets to see.  A disciplined program is in one guard
at a time, has left it when it ends or asks for something, and does only quiet acts in
between.  `Ends` is about how a program ends as long as no guard is refused to it.
-/

namespace NinjaFile.Program

variable {σ ρ α β : Type} {P P' quiet quiet' : (σ → σ) → Prop}

/-! ## One guard at a time -/

/-- A program that is in the guard `held`, if in any, and that goes on from there taking
one guard at a time. -/
def Disciplined (P quiet : (σ → σ) → Prop) :
    Program σ ρ α → Option (LockId × Mode) → Prop
  | .pure _, held => held = none
  | .fail _, held => held = none
  | .act f next, held =>
      P f ∧ (held ≠ none → quiet f) ∧ ∀ s, (next s).Disciplined P quiet held
  | .enter lock mode next, held =>
      held = none ∧ (next none).Disciplined P quiet (some (lock, mode)) ∧
        ∀ fault, (next (some fault)).Disciplined P quiet none
  | .leave lock mode next, held =>
      held = some (lock, mode) ∧ next.Disciplined P quiet none
  | .call _ next, held => held = none ∧ next.Disciplined P quiet none

/-- A program that does nothing but acts. -/
def Swift (P : (σ → σ) → Prop) : Program σ ρ α → Prop
  | .pure _ => True
  | .fail _ => True
  | .act f next => P f ∧ ∀ s, (next s).Swift P
  | .enter .. => False
  | .leave .. => False
  | .call .. => False

theorem Disciplined.every {p : Program σ ρ α} {held : Option (LockId × Mode)}
    (h : p.Disciplined P quiet held) : p.Every P := by
  induction p generalizing held with
  | pure a => trivial
  | fail fault => trivial
  | act f next ih => exact ⟨h.1, fun s => ih s (h.2.2 s)⟩
  | enter lock mode next ih =>
      intro r
      cases r with
      | none => exact ih none h.2.1
      | some fault => exact ih (some fault) (h.2.2 fault)
  | leave lock mode next ih => exact ih h.2
  | call request next ih => exact ih h.2

theorem Disciplined.mono (hP : ∀ f, P f → P' f) (hquiet : ∀ f, quiet f → quiet' f)
    {p : Program σ ρ α} {held : Option (LockId × Mode)} (h : p.Disciplined P quiet held) :
    p.Disciplined P' quiet' held := by
  induction p generalizing held with
  | pure a => exact h
  | fail fault => exact h
  | act f next ih =>
      exact ⟨hP f h.1, fun inside => hquiet f (h.2.1 inside), fun s => ih s (h.2.2 s)⟩
  | enter lock mode next ih =>
      exact ⟨h.1, ih none h.2.1, fun fault => ih (some fault) (h.2.2 fault)⟩
  | leave lock mode next ih => exact ⟨h.1, ih h.2⟩
  | call request next ih => exact ⟨h.1, ih h.2⟩

theorem disciplined_bind {p : Program σ ρ α} {k : α → Program σ ρ β}
    {held : Option (LockId × Mode)} (hp : p.Disciplined P quiet held)
    (hk : ∀ a, (k a).Disciplined P quiet none) : (p >>= k).Disciplined P quiet held := by
  rw [bind_eq]
  induction p generalizing held with
  | pure a =>
      obtain rfl := hp
      exact hk a
  | fail fault => exact hp
  | act f next ih => exact ⟨hp.1, hp.2.1, fun s => ih s (hp.2.2 s)⟩
  | enter lock mode next ih =>
      exact ⟨hp.1, ih none hp.2.1, fun fault => ih (some fault) (hp.2.2 fault)⟩
  | leave lock mode next ih => exact ⟨hp.1, ih hp.2⟩
  | call request next ih => exact ⟨hp.1, ih hp.2⟩

theorem disciplined_attempt {p : Program σ ρ α} {held : Option (LockId × Mode)}
    (hp : p.Disciplined P quiet held) : p.attempt.Disciplined P quiet held := by
  induction p generalizing held with
  | pure a => exact hp
  | fail fault => exact hp
  | act f next ih => exact ⟨hp.1, hp.2.1, fun s => ih s (hp.2.2 s)⟩
  | enter lock mode next ih =>
      exact ⟨hp.1, ih none hp.2.1, fun fault => ih (some fault) (hp.2.2 fault)⟩
  | leave lock mode next ih => exact ⟨hp.1, ih hp.2⟩
  | call request next ih => exact ⟨hp.1, ih hp.2⟩

theorem disciplined_ofExcept (r : Except Fault α) :
    (ofExcept r : Program σ ρ α).Disciplined P quiet none := by
  cases r <;> rfl

theorem disciplined_modify {f : σ → σ} (hf : P f) :
    (modify f : Program σ ρ Unit).Disciplined P quiet none :=
  ⟨hf, fun inside => absurd rfl inside, fun _ => rfl⟩

theorem disciplined_update {f : σ → α × σ} (hf : P fun s => (f s).2) :
    (update f : Program σ ρ α).Disciplined P quiet none :=
  ⟨hf, fun inside => absurd rfl inside, fun _ => rfl⟩

/-! ## Inside a guard -/

theorem swift_bind {p : Program σ ρ α} {k : α → Program σ ρ β} (hp : p.Swift P)
    (hk : ∀ a, (k a).Swift P) : (p >>= k).Swift P := by
  rw [bind_eq]
  induction p with
  | pure a => exact hk a
  | fail fault => trivial
  | act f next ih => exact ⟨hp.1, fun s => ih s (hp.2 s)⟩
  | enter | leave | call => exact hp.elim

theorem swift_ofExcept (r : Except Fault α) : (ofExcept r : Program σ ρ α).Swift P := by
  cases r <;> trivial

theorem swift_modify {f : σ → σ} (hf : P f) : (modify f : Program σ ρ Unit).Swift P :=
  ⟨hf, fun _ => trivial⟩

theorem swift_update {f : σ → α × σ} (hf : P fun s => (f s).2) :
    (update f : Program σ ρ α).Swift P :=
  ⟨hf, fun _ => trivial⟩

/-- What does nothing but quiet acts can be done inside a guard. -/
theorem disciplined_guarded {body : Program σ ρ α} (lock : LockId) (mode : Mode)
    (hbody : body.Swift fun f => P f ∧ quiet f) :
    (guarded lock mode body).Disciplined P quiet none := by
  refine ⟨rfl, ?_, fun fault => rfl⟩
  change (body.attempt.bind fun r => .leave lock mode (ofExcept r)).Disciplined P quiet _
  induction body with
  | pure a => exact ⟨rfl, rfl⟩
  | fail fault => exact ⟨rfl, rfl⟩
  | act f next ih => exact ⟨hbody.1.1, fun _ => hbody.1.2, fun s => ih s (hbody.2 s)⟩
  | enter | leave | call => exact hbody.elim

/-! ## Ends -/

/-- If no guard is refused, the program ends only as `Q` says. -/
def Ends (Q : Except Fault α → Prop) : Program σ ρ α → Prop
  | .pure a => Q (.ok a)
  | .fail fault => Q (.error fault)
  | .act _ next => ∀ s, (next s).Ends Q
  | .enter _ _ next => (next none).Ends Q
  | .leave _ _ next => next.Ends Q
  | .call _ next => next.Ends Q

theorem Ends.and {Q R : Except Fault α → Prop} {p : Program σ ρ α} (hQ : p.Ends Q)
    (hR : p.Ends R) : p.Ends fun r => Q r ∧ R r := by
  induction p with
  | pure a => exact ⟨hQ, hR⟩
  | fail fault => exact ⟨hQ, hR⟩
  | act f next ih => exact fun s => ih s (hQ s) (hR s)
  | enter lock mode next ih => exact ih none hQ hR
  | leave lock mode next ih => exact ih hQ hR
  | call request next ih => exact ih hQ hR

theorem Ends.bind {Q : Except Fault α → Prop} {R : Except Fault β → Prop}
    {p : Program σ ρ α} {k : α → Program σ ρ β} (hp : p.Ends Q)
    (ok : ∀ a, Q (.ok a) → (k a).Ends R) (error : ∀ fault, Q (.error fault) → R (.error fault)) :
    (p >>= k).Ends R := by
  rw [bind_eq]
  induction p with
  | pure a => exact ok a hp
  | fail fault => exact error fault hp
  | act f next ih => exact fun s => ih s (hp s)
  | enter lock mode next ih => exact ih none hp
  | leave lock mode next ih => exact ih hp
  | call request next ih => exact ih hp

theorem Ends.attempt {Q : Except Fault α → Prop} {R : Except Fault (Except Fault α) → Prop}
    {p : Program σ ρ α} (hp : p.Ends Q) (h : ∀ r, Q r → R (.ok r)) : p.attempt.Ends R := by
  induction p with
  | pure a => exact h _ hp
  | fail fault => exact h _ hp
  | act f next ih => exact fun s => ih s (hp s)
  | enter lock mode next ih => exact ih none hp
  | leave lock mode next ih => exact ih hp
  | call request next ih => exact ih hp

theorem ends_ofExcept {Q : Except Fault α → Prop} {r : Except Fault α} (h : Q r) :
    (ofExcept r : Program σ ρ α).Ends Q := by
  cases r <;> exact h

theorem Ends.guarded {Q : Except Fault α → Prop} {body : Program σ ρ α} (lock : LockId)
    (mode : Mode) (h : body.Ends Q) : (guarded lock mode body).Ends Q := by
  have attempted : body.attempt.Ends fun r => ∃ outcome, r = .ok outcome ∧ Q outcome :=
    h.attempt fun r hr => ⟨r, rfl, hr⟩
  change (body.attempt >>= fun r => leave lock mode (ofExcept r)).Ends Q
  refine attempted.bind (fun outcome hr => ?_) fun fault hr => ?_
  · obtain ⟨_, ⟨⟩, hQ⟩ := hr
    exact ends_ofExcept hQ
  · obtain ⟨_, ⟨⟩, -⟩ := hr

/-! ## Faults -/

/-- Whatever is refused to it, the program fails only as `Q` says. -/
def FailsOnly (Q : Fault → Prop) : Program σ ρ α → Prop
  | .pure _ => True
  | .fail fault => Q fault
  | .act _ next => ∀ s, (next s).FailsOnly Q
  | .enter _ _ next => ∀ r, (next r).FailsOnly Q
  | .leave _ _ next => next.FailsOnly Q
  | .call _ next => next.FailsOnly Q

section Faults

variable {Q : Fault → Prop}

theorem failsOnly_bind {p : Program σ ρ α} {k : α → Program σ ρ β} (hp : p.FailsOnly Q)
    (hk : ∀ a, (k a).FailsOnly Q) : (p >>= k).FailsOnly Q := by
  rw [bind_eq]
  induction p with
  | pure a => exact hk a
  | fail fault => exact hp
  | act f next ih => exact fun s => ih s (hp s)
  | enter lock mode next ih => exact fun r => ih r (hp r)
  | leave lock mode next ih => exact ih hp
  | call request next ih => exact ih hp

theorem failsOnly_ofExcept {r : Except Fault α} (h : ∀ fault, r = .error fault → Q fault) :
    (ofExcept r : Program σ ρ α).FailsOnly Q := by
  cases r with
  | ok a => trivial
  | error fault => exact h fault rfl

theorem failsOnly_guarded {body : Program σ ρ α} (lock : LockId) (mode : Mode) (h : body.FailsOnly Q)
    (refused : ∀ fault, Q (.borrow fault)) : (guarded lock mode body).FailsOnly Q := by
  intro r
  cases r with
  | some fault => exact refused fault
  | none =>
      change (body.attempt.bind fun r => .leave lock mode (ofExcept r)).FailsOnly Q
      induction body with
      | pure a => trivial
      | fail fault => exact h
      | act f next ih => exact fun s => ih s (h s)
      | enter other mode next ih => exact fun r => ih r (h r)
      | leave other mode next ih => exact ih h
      | call request next ih => exact ih h

end Faults

end NinjaFile.Program
