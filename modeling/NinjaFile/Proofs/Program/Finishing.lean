import NinjaFile.Proofs.Program.Alone

/-!
# Actions that come to an end

What an action does in one thread with nobody else about: it comes to an end, without ever
waiting for a guard.  What it asks for on its way, steps of the same thread do in its place;
they can report what they have done, and if no report is wanted they are the same steps.
-/

namespace NinjaFile

open Program Store

variable {σ ρ α β γ ε : Type}

namespace Program.Pause

/-- Where a run stops that has come to an end. -/
def ofResult : Except Fault α → Pause σ ρ α
  | .ok a => .done a
  | .error fault => .failed fault

end Program.Pause

namespace Program

/-- In the thread, the action comes to an end as `Q` says and asks for nothing. -/
def Finishes (t : ThreadId) (Q : Except Fault α → Store → Prop) : Action α → Store → Prop
  | .pure a, s => Q (.ok a) s
  | .fail fault, s => Q (.error fault) s
  | .act f next, s => (next s).Finishes t Q (f s)
  | .enter lock mode next, s =>
      match (s.guard lock).request t mode with
      | .entered g => (next none).Finishes t Q (s.setGuard lock g)
      | .refused fault g => (next (some fault)).Finishes t Q (s.setGuard lock g)
      | .waits _ => False
  | .leave lock mode next, s =>
      next.Finishes t Q (s.setGuard lock ((s.guard lock).leave t mode))
  | .call .., _ => False

section Finishes

variable {t : ThreadId} {Q R : Except Fault α → Store → Prop} {s : Store}

theorem Finishes.run {τ : Type} {p : Action α} (h : p.Finishes t Q s)
    (serve : SourceId → Store × τ → Store × τ) (x : τ) :
    ∃ r s', p.run t serve (s, x) = (.ofResult r, (s', x)) ∧ Q r s' := by
  induction p generalizing s with
  | pure a => exact ⟨.ok a, s, rfl, h⟩
  | fail fault => exact ⟨.error fault, s, rfl, h⟩
  | act f next ih => exact ih s h
  | enter lock mode next ih =>
      rw [Program.run, show Guarded.guard s lock = s.guard lock from rfl]
      rw [Finishes] at h
      cases hentry : (s.guard lock).request t mode with
      | entered g =>
          rw [hentry] at h
          exact ih none h
      | refused fault g =>
          rw [hentry] at h
          exact ih (some fault) h
      | waits g =>
          rw [hentry] at h
          exact h.elim
  | leave lock mode next ih => exact ih h
  | call request next ih => exact h.elim

theorem Finishes.mono {p : Action α} (h : p.Finishes t Q s) (hQ : ∀ r s, Q r s → R r s) :
    p.Finishes t R s := by
  induction p generalizing s with
  | pure a => exact hQ _ _ h
  | fail fault => exact hQ _ _ h
  | act f next ih => exact ih s h
  | enter lock mode next ih =>
      rw [Finishes] at h ⊢
      split at h
      · exact ih none h
      · exact ih (some _) h
      · exact h.elim
  | leave lock mode next ih => exact ih h
  | call request next ih => exact h.elim

theorem Finishes.bind {p : Action α} {k : α → Action β} {R : Except Fault β → Store → Prop}
    (h : p.Finishes t Q s) (ok : ∀ a s, Q (.ok a) s → (k a).Finishes t R s)
    (error : ∀ fault s, Q (.error fault) s → R (.error fault) s) :
    (p >>= k).Finishes t R s := by
  rw [bind_eq]
  induction p generalizing s with
  | pure a => exact ok a s h
  | fail fault => exact error fault s h
  | act f next ih => exact ih s h
  | enter lock mode next ih =>
      rw [Finishes] at h
      rw [enter_bind, Finishes]
      split at h
      · exact ih none h
      · exact ih (some _) h
      · exact h.elim
  | leave lock mode next ih => exact ih h
  | call request next ih => exact h.elim

theorem Finishes.then {p : Action α} {k : α → Action β} {P : α → Store → Prop}
    {R : Except Fault β → Store → Prop}
    (h : p.Finishes t (fun r s => ∃ a, r = .ok a ∧ P a s) s)
    (next : ∀ a s, P a s → (k a).Finishes t R s) : (p >>= k).Finishes t R s := by
  refine h.bind (fun a s' ha => ?_) fun fault s' ha => ?_
  · obtain ⟨_, ⟨⟩, hP⟩ := ha
    exact next a s' hP
  · obtain ⟨_, ⟨⟩, -⟩ := ha

end Finishes

/-! ## Steps in the place of a request -/

/-- Wherever the action asks for something, steps are run in its place, however they end. -/
def serving : Program σ ρ α → Program σ ρ β → Program σ ρ α
  | .pure a, _ => .pure a
  | .fail fault, _ => .fail fault
  | .act f next, steps => .act f fun s => (next s).serving steps
  | .enter lock mode next, steps => .enter lock mode fun r => (next r).serving steps
  | .leave lock mode next, steps => .leave lock mode (next.serving steps)
  | .call _ next, steps => steps.attempt.bind fun _ => next.serving steps

/-- How the program ends, and what the steps that are run in the place of its requests have
to report. -/
def reporting : Program σ ρ α → Program σ ρ (List ε) → Program σ ρ (Except Fault α × List ε)
  | .pure a, _ => .pure (.ok a, [])
  | .fail fault, _ => .pure (.error fault, [])
  | .act f next, steps => .act f fun s => (next s).reporting steps
  | .enter lock mode next, steps => .enter lock mode fun r => (next r).reporting steps
  | .leave lock mode next, steps => .leave lock mode (next.reporting steps)
  | .call _ next, steps =>
      steps.bind fun report =>
        (next.reporting steps).bind fun x => .pure (x.1, report ++ x.2)

/-! ## Reports do not matter -/

section Reports

variable (p : Program σ ρ α)

theorem attempt_bind (k : α → Program σ ρ β) :
    (p.bind k).attempt = p.attempt.bind fun
      | .ok a => (k a).attempt
      | .error fault => .pure (.error fault) := by
  induction p <;> simp_all [attempt]

theorem attempt_attempt_bind (k : Except Fault α → Program σ ρ β) :
    (p.attempt.bind k).attempt = p.attempt.bind fun r => (k r).attempt := by
  induction p <;> simp_all [attempt]

@[simp] theorem attempt_ofExcept (r : Except Fault α) :
    (Program.ofExcept r : Program σ ρ α).attempt = .pure r := by
  cases r <;> rfl

theorem attempt_bind_ofExcept : p.attempt.bind Program.ofExcept = p := by
  induction p <;> simp_all [attempt, Program.ofExcept]

theorem serving_bind (k : α → Program σ ρ β) (steps : Program σ ρ γ) :
    (p.bind k).serving steps = (p.serving steps).bind fun a => (k a).serving steps := by
  induction p with
  | pure a => rfl
  | fail fault => rfl
  | act f next ih => exact congrArg (act f) (funext ih)
  | enter lock mode next ih => exact congrArg (enter lock mode) (funext ih)
  | leave lock mode next ih => exact congrArg (leave lock mode) ih
  | call request next ih =>
      rw [call_bind, serving, serving, Program.bind_assoc, ih]

variable {p}

/-- Apart from what it reports, a program is another one where faults are caught. -/
def Reports (q : Program σ ρ (Except Fault α × List ε)) (p : Program σ ρ α) : Prop :=
  p.attempt = q.bind fun x => .pure x.1

theorem Reports.eq {q : Program σ ρ (Except Fault α × List ε)} (h : q.Reports p) :
    p = q.bind fun x => Program.ofExcept x.1 := by
  rw [← attempt_bind_ofExcept p, h, Program.bind_assoc]
  rfl

/-- What the steps report does not matter to the program that they are a part of. -/
theorem reports_reporting {q : Program σ ρ (Except Fault β × List ε)} {steps : Program σ ρ β}
    (h : q.Reports steps) (p : Program σ ρ α) :
    (p.reporting (q.bind fun x => .pure x.2)).Reports (p.serving steps) := by
  rw [Reports]
  induction p with
  | pure a => rfl
  | fail fault => rfl
  | act f next ih => exact congrArg (act f) (funext ih)
  | enter lock mode next ih => exact congrArg (enter lock mode) (funext ih)
  | leave lock mode next ih => exact congrArg (leave lock mode) ih
  | call request next ih =>
      rw [serving, attempt_attempt_bind, ih, h, reporting]
      simp only [Program.bind_assoc, Program.pure_bind]

end Reports

end Program

end NinjaFile
