import Mathlib.Data.Nat.Find
import NinjaFile.Proofs.Manifest.Building

/-!
# When a builder fails

A builder fails just where a manifest refers to what is not declared by then, or has a
declaration that means nothing, and it fails with the first such fault.
-/

namespace NinjaFile

open Program Store Action Manifest

namespace Builder

variable {m : Manifest} {config : List (Value × Value)} {s : Store}

/-- A call makes a document and forgets all pools before it replays the declarations. -/
theorem returns_begun {b : Builder} (typed : TypedConfig b.config) (fresh : s.Fresh)
    {Q : Builder × Except Fault DocumentId → Store → Prop}
    (h : ∀ d a s₁, Building s d a [] [] s₁ →
      Returns (Builder.addAll
        { b with pools := [(DocumentId.consoleName, .builtIn (s₁.document d).console)] }
        d 0 b.manifest.declarations) s₁ fun r s' => Q (r.1, r.2.map fun _ => d) s') :
    Returns b.build s Q := by
  rw [build]
  refine returns_then (returns_attempt (DocumentId.returns_make fresh typed)) fun r s₁ made => ?_
  obtain ⟨d, rfl, a, hb⟩ := made
  refine returns_bind (returns_of_alone (alone_read _ _) ?_)
  exact returns_then (h d a s₁ hb) fun r s₂ hQ => returns_pure hQ

/-- A builder ends with the document of its manifest, or with the first fault of it. -/
theorem returns_build (typed : TypedConfig config) (fresh : s.Fresh) (m : Manifest) :
    Returns (ofManifest m config).build s fun r s' =>
      match firstFault? [] 0 m.declarations with
      | none => ∃ d a, r.2 = .ok d ∧ Replayed m s d a m.declarations r.1 s'
      | some (fault, position) => r.2 = .error (.reference fault position) := by
  refine returns_begun (typed_config typed m) fresh fun d a s₁ hb => ?_
  have start := replayed_nil hb (m := m) (b := { ofManifest m config with
    pools := [(DocumentId.consoleName, .builtIn (s₁.document d).console)] }) rfl rfl rfl
  refine returns_mono (start.returns_addAll 0 m.declarations) fun r s₂ hr => ?_
  obtain ⟨b', outcome⟩ := r
  cases hfirst : firstFault? [] 0 m.declarations with
  | none =>
      rw [hfirst] at hr
      obtain ⟨rfl, replayed⟩ := hr
      exact ⟨d, a, rfl, replayed⟩
  | some first =>
      rw [hfirst] at hr
      obtain rfl : outcome = .error (.reference first.1 first.2) := hr
      rfl

/-- The fault that comes up is the one at the least position where something is wrong. -/
theorem firstFault?_declarations {fault : ReferenceFault} {p : Nat} :
    firstFault? [] 0 m.declarations = some (fault, p) ↔
      m.Wrong p fault ∧ ∀ q < p, ∀ other, ¬ m.Wrong q other :=
  firstFault?_eq_some rfl fun _ hq => (Nat.not_lt_zero _ hq).elim

end Builder

end NinjaFile
