import NinjaFile.Proofs.Program.Faults
import NinjaFile.Proofs.Sharing.Owners

/-!
# Terms of sharing

The terms on which calls share a document.  A program is looked at piece by piece: from
an assertion that others cannot take away it leads to another one, and it neither enters a
guard inside another one nor fails for want of a guard.
-/

namespace NinjaFile

namespace Sharing

open Store Program

/-- A call among others: the document, its arena, and what the call has for its own. -/
structure Setting where
  document : DocumentId
  arena : Arena
  stake : Stake

/-- A list that a call may ask for: one that is shared, its own or given to it for reading,
the arena or its own for writing. -/
def May (c : Setting) (trail : List (Store × Store)) (s : Store) (l : ListId) : Mode → Prop
  | .read => s.Shares l ∨ c.stake.HasList trail l ∨ l ∈ c.stake.borrows
  | .write => c.stake.holds = false ∧
      (l = c.arena.statements ∧ c.stake.inserts ∨ c.stake.HasList trail l)

/-- Every step is one of the known acts, and guards are never refused. -/
def Setting.terms (c : Setting) : Terms Store where
  inv := Safe c.document c.arena
  rely := Rely c.stake
  keeps := Act c.arena c.stake
  enters g s lock mode := g.inside = [] ∧ ∃ l, lock = .list l ∧ May c g.trail s l mode
  refuses := False

theorem steady_terms (c : Setting) : c.terms.Steady where
  refl _ s _ := .alike (.refl s)
  trans _ _ _ _ := .trans
  inv_setGuard s lock g h := h.alike (.setGuard s lock g)
  rely_setGuard _ s lock g _ := .alike (.setGuard s lock g)

/-- What is said of a thread that has done some steps, and of the store. -/
abbrev Assertion := List (Store × Store) → Store → Prop

variable {c : Setting} {α β : Type}

/-- Others cannot take the assertion away. -/
def Stable (c : Setting) (J : Assertion) : Prop :=
  ∀ trail s s', J trail s → Rely c.stake trail s s' → J trail s'

/-- Nor can steps that change none of the lists and statements. -/
structure Firm (c : Setting) (J : Assertion) : Prop where
  stable : Stable c J
  quiet : ∀ trail s s', J trail s → s.Alike s' → s'.lists = s.lists → J (trail ++ [(s, s')]) s'

/-- Where a program leads to, among others and inside some guards. -/
def Does (c : Setting) (held : List (LockId × Mode)) (J : Assertion) (p : Action α)
    (Q : α → Assertion) : Prop :=
  ∀ g s, g.inside = held → J g.trail s →
    p.wp c.terms (fun r g s => g.inside = held ∧ (∀ x, r = .ok x → Q x g.trail s) ∧
      ∀ fault, r = .error fault → fault.isBorrow = false) g s

section

variable {held : List (LockId × Mode)} {J K : Assertion} {Q R : α → Assertion}

theorem does_mono {p : Action α} (h : Does c held J p Q) (pre : ∀ trail s, K trail s → J trail s)
    (post : ∀ x trail s, Q x trail s → R x trail s) : Does c held K p R := by
  intro g s hheld hK
  refine wp_mono ?_ (h g s hheld (pre _ _ hK))
  rintro r g s ⟨hin, hok, herror⟩
  exact ⟨hin, fun x hx => post x _ _ (hok x hx), herror⟩

theorem does_pull {p : Action α} {fact : Prop} (h : fact → Does c held J p Q) :
    Does c held (fun trail s => J trail s ∧ fact) p Q :=
  fun g s hheld hJ => h hJ.2 g s hheld hJ.1

theorem does_exists {ι : Type} {P : ι → Assertion} {p : Action α}
    (h : ∀ i, Does c held (P i) p Q) : Does c held (fun trail s => ∃ i, P i trail s) p Q :=
  fun g s hheld ⟨i, hP⟩ => h i g s hheld hP

theorem does_fact {p : Action α} (fact : Prop) (known : ∀ trail s, J trail s → fact)
    (h : fact → Does c held J p Q) : Does c held J p Q :=
  fun g s hheld hJ => h (known _ _ hJ) g s hheld hJ

theorem does_pure {x : α} (h : ∀ trail s, J trail s → Q x trail s) :
    Does c held J (Pure.pure x) Q :=
  fun _ _ hheld hJ => ⟨hheld, fun _ hx => Except.ok.inj hx ▸ h _ _ hJ, fun _ h => by cases h⟩

theorem does_fail {fault : Fault} (h : fault.isBorrow = false) :
    Does c held J (Program.fail fault) Q :=
  fun _ _ hheld _ => ⟨hheld, fun _ h => by (cases h), fun _ h' => Except.error.inj h' ▸ h⟩

theorem does_bind {Q : β → Assertion} {p : Action α} {k : α → Action β}
    (hp : Does c held J p R) (hk : ∀ x, Does c held (R x) (k x) Q) :
    Does c held J (p >>= k) Q := by
  intro g s hheld hJ
  rw [wp_bind]
  refine wp_mono ?_ (hp g s hheld hJ)
  rintro r g s ⟨hin, hok, herror⟩
  cases r with
  | ok x => exact hk x g s hin (hok x rfl)
  | error fault => exact ⟨hin, fun _ h => by (cases h), fun _ h => Except.error.inj h ▸ herror fault rfl⟩

theorem does_ofExcept {r : Except Fault α}
    (h : ∀ x, r = .ok x → ∀ trail s, J trail s → Q x trail s)
    (herror : ∀ fault, r = .error fault → ∀ trail s, J trail s → fault.isBorrow = false) :
    Does c held J (ofExcept r) Q := by
  cases r with
  | ok x => exact does_pure (h x rfl)
  | error fault =>
      intro g s hheld hJ
      exact does_fail (J := J) (herror fault rfl _ _ hJ) g s hheld hJ

theorem does_update {f : Store → α × Store} (stable : Stable c J)
    (h : ∀ trail s, J trail s → Safe c.document c.arena s →
      Act c.arena c.stake trail s (f s).2 ∧ Q (f s).1 (trail ++ [(s, (f s).2)]) (f s).2) :
    Does c held J (.update f) Q := by
  intro g s hheld hJ
  rw [wp_update]
  intro s' hrely hsafe
  obtain ⟨hact, hQ⟩ := h g.trail s' (stable _ _ _ hJ hrely) hsafe
  exact ⟨hact, hact.safe hsafe, hheld, fun _ hx => Except.ok.inj hx ▸ hQ, fun _ h => by cases h⟩

theorem does_modify {f : Store → Store} {Q : Unit → Assertion} (stable : Stable c J)
    (h : ∀ trail s, J trail s → Safe c.document c.arena s →
      Act c.arena c.stake trail s (f s) ∧ Q () (trail ++ [(s, f s)]) (f s)) :
    Does c held J (.modify f) Q :=
  does_update (f := fun s => ((), f s)) stable h

theorem does_read {f : Store → α} (firm : Firm c J)
    (h : ∀ trail s, J (trail ++ [(s, s)]) s → Safe c.document c.arena s →
      Q (f s) (trail ++ [(s, s)]) s) : Does c held J (Action.read f) Q :=
  does_update (f := fun s => (f s, s)) firm.stable fun trail s hJ hsafe =>
    ⟨.quiet (.refl s) rfl, h trail s (firm.quiet _ _ _ hJ (.refl s) rfl) hsafe⟩

theorem does_guarded {l : ListId} {mode : Mode} {body : Action α} (stable : Stable c J)
    (may : ∀ trail s, J trail s → Safe c.document c.arena s → May c trail s l mode)
    (hbody : Does c [(.list l, mode)] J body Q) :
    Does c [] J (.guarded (.list l) mode body) Q := by
  intro g s hheld hJ
  rw [wp_guarded]
  intro s' hrely hsafe
  have hJ' := stable _ _ _ hJ hrely
  refine ⟨⟨hheld, l, rfl, may _ _ hJ' hsafe⟩, ?_, fun h => h.elim⟩
  refine wp_mono ?_ (hbody _ s' (by simp [hheld]) hJ')
  rintro r g s ⟨hin, hok, herror⟩
  exact ⟨by simp [hin], hok, herror⟩

end

end Sharing

end NinjaFile
