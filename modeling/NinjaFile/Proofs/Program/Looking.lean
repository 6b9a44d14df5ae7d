import NinjaFile.Proofs.Program.Discipline

/-!
# Looking

A program that only looks: it changes nothing, and what it does next depends only on what
two stores have in common that others may turn into each other.  Unless a guard is refused
it ends as it would have where it began.
-/

namespace NinjaFile

namespace Program

variable {σ ρ α β : Type} {R : σ → σ → Prop}

/-- What a program that only looks gives where every guard lets it in. -/
def seen : Program σ ρ α → σ → Except Fault α
  | .pure a, _ => .ok a
  | .fail fault, _ => .error fault
  | .act _ next, s => (next s).seen s
  | .enter _ _ next, s => (next none).seen s
  | .leave _ _ next, s => next.seen s
  | .call _ next, s => next.seen s

/-- The program changes nothing, sees the same in states that `R` relates, and ends when a
guard is refused. -/
def Looks (R : σ → σ → Prop) : Program σ ρ α → Prop
  | .pure _ => True
  | .fail _ => True
  | .act f next => (∀ s, f s = s) ∧ (∀ s s', R s s' → next s' = next s) ∧ ∀ s, (next s).Looks R
  | .enter _ _ next => (next none).Looks R ∧ ∀ fault, next (some fault) = .fail (.borrow fault)
  | .leave _ _ next => next.Looks R
  | .call .. => False

theorem looks_ofExcept (r : Except Fault α) : (ofExcept r : Program σ ρ α).Looks R := by
  cases r <;> trivial

theorem seen_bind (p : Program σ ρ α) (k : α → Program σ ρ β) (s : σ) :
    (p >>= k).seen s = p.seen s >>= fun a => (k a).seen s := by
  rw [bind_eq]
  induction p with
  | pure a => rfl
  | fail fault => rfl
  | act f next ih => exact ih s
  | enter lock mode next ih => exact ih none
  | leave lock mode next ih => exact ih
  | call request next ih => exact ih

@[simp] theorem seen_ofExcept (r : Except Fault α) (s : σ) :
    (ofExcept r : Program σ ρ α).seen s = r := by
  cases r <;> rfl

theorem seen_attempt (p : Program σ ρ α) (s : σ) : p.attempt.seen s = .ok (p.seen s) := by
  induction p with
  | pure | fail => rfl
  | act f next ih => exact ih s
  | enter lock mode next ih => exact ih none
  | leave lock mode next ih => exact ih
  | call request next ih => exact ih

/-- What is seen inside a guard is what would be seen without it. -/
theorem seen_guarded (lock : LockId) (mode : Mode) (body : Program σ ρ α) (s : σ) :
    (guarded lock mode body).seen s = body.seen s := by
  change (body.attempt >>= fun r => .leave lock mode (ofExcept r)).seen s = _
  rw [seen_bind, seen_attempt]
  exact seen_ofExcept _ s

theorem looks_bind {p : Program σ ρ α} {k : α → Program σ ρ β} (hp : p.Looks R)
    (hk : ∀ a, (k a).Looks R) : (p >>= k).Looks R := by
  rw [bind_eq]
  induction p with
  | pure a => exact hk a
  | fail fault => trivial
  | act f next ih =>
      refine ⟨hp.1, fun s s' h => ?_, fun s => ih s (hp.2.2 s)⟩
      simp only [hp.2.1 s s' h]
  | enter lock mode next ih =>
      refine ⟨ih none hp.1, fun fault => ?_⟩
      simp only [hp.2 fault, fail_bind]
  | leave lock mode next ih => exact ih hp
  | call => exact hp.elim

theorem Looks.every {p : Program σ ρ α} (h : p.Looks R) : p.Every fun f => ∀ s, f s = s := by
  induction p with
  | pure | fail => trivial
  | act f next ih => exact ⟨h.1, fun s => ih s (h.2.2 s)⟩
  | enter lock mode next ih =>
      intro r
      cases r with
      | none => exact ih none h.1
      | some fault =>
          rw [h.2 fault]
          trivial
  | leave lock mode next ih => exact ih h
  | call => exact h.elim

theorem looks_guarded {P : (σ → σ) → Prop} {body : Program σ ρ α} (lock : LockId) (mode : Mode)
    (swift : body.Swift P) (h : body.Looks R) : (guarded lock mode body).Looks R := by
  refine ⟨?_, fun fault => rfl⟩
  change (body.attempt.bind fun r => .leave lock mode (ofExcept r)).Looks R
  induction body with
  | pure | fail => trivial
  | act f next ih =>
      refine ⟨h.1, fun s s' hR => ?_, fun s => ih s (swift.2 s) (h.2.2 s)⟩
      simp only [h.2.1 s s' hR]
  | enter | leave | call => exact swift.elim

section Wp

variable {T : Terms σ}

/-- A look stands by any terms that leave a look alone.  Unless a guard is refused it gives
what could be seen where it began. -/
theorem Looks.wp (trans : ∀ s s' s'', R s s' → R s' s'' → R s s'')
    (relies : ∀ trail s s', T.rely trail s s' → R s s')
    (keeps : ∀ trail s, T.inv s → T.keeps trail s s) (enters : ∀ g s lock mode, T.enters g s lock mode)
    {p : Program σ ρ α} (h : p.Looks R) {s₀ : σ} {g : Progress σ} {s : σ} (hR : R s₀ s) :
    p.wp T (fun r _ s' => R s₀ s' ∧ (r = p.seen s₀ ∨ ∃ fault, r = .error (.borrow fault))) g s := by
  induction p generalizing g s with
  | pure | fail => exact ⟨hR, .inl rfl⟩
  | act f next ih =>
      intro s' hrely hinv
      have hR' := trans _ _ _ hR (relies _ _ _ hrely)
      rw [h.1 s']
      refine ⟨keeps _ _ hinv, hinv, ?_⟩
      rw [h.2.1 s₀ s' hR']
      exact ih s₀ (h.2.2 s₀) hR'
  | enter lock mode next ih =>
      intro s' hrely hinv
      have hR' := trans _ _ _ hR (relies _ _ _ hrely)
      refine ⟨enters .., ih none h.1 hR', fun _ fault => ?_⟩
      rw [h.2 fault]
      exact ⟨hR', .inr ⟨fault, rfl⟩⟩
  | leave lock mode next ih => exact ih h hR
  | call => exact h.elim

end Wp

end Program

end NinjaFile
