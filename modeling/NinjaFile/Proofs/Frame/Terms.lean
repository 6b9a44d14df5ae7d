import NinjaFile.Proofs.Frame.Register

/-!
# Terms of keeping homes

The terms on which threads work on one store: each of them takes only steps that give a list
to one place for good, and counts on the others for the same.
-/

namespace NinjaFile.Housing

open Store Program

variable {α β : Type} {trail : List (Store × Store)} {s s' : Store}

/-- There is a register that is right, for a thread that has taken some steps. -/
def Good (trail : List (Store × Store)) (s : Store) : Prop := ∃ reg : Register, reg.Agrees trail s

theorem Good.housed (h : Good trail s) : s.Housed := by
  obtain ⟨reg, agrees⟩ := h
  exact agrees.keeps.housed

theorem Good.suits (h : Good trail s) {l : ListId} {x : Place} (knows : Knows trail s l x) :
    ∀ v ∈ (s.list l).items, s.Suits x v := by
  obtain ⟨reg, agrees⟩ := h
  exact agrees.keeps.suits l x (agrees.knows knows)

theorem Good.vacant (h : Good trail s) {l : ListId} (own : Own trail l) (x : Place) :
    ¬ s.Houses l x := by
  obtain ⟨reg, agrees⟩ := h
  exact agrees.vacant own x

theorem Good.made (h : Good trail s) {l : ListId} (own : Own trail l) :
    l.index < s.lists.size := by
  obtain ⟨reg, agrees⟩ := h
  exact agrees.made l own.made

theorem Good.not_saw (h : Good trail s) {l : ListId} (new : s.lists.size ≤ l.index) (x : Place) :
    ¬ Knows trail s l x := by
  obtain ⟨reg, agrees⟩ := h
  exact fun knows => Nat.not_lt.mpr new (agrees.keeps.known l x (agrees.knows knows))

theorem Good.note (h : Good trail s) (act : Act trail s s') : Good (trail ++ [(s, s')]) s' := by
  obtain ⟨reg, agrees⟩ := h
  exact ⟨_, act.agrees_own agrees⟩

theorem Idle.own_of_good (idle : Idle s s') (good : Good trail s) {l : ListId} (own : Own trail l) :
    Own (trail ++ [(s, s')]) l := by
  obtain ⟨reg, agrees⟩ := good
  exact idle.own agrees own

/-! ## Terms -/

/-- What others do: things last, and what a thread has to itself is left alone. -/
structure Rely (trail : List (Store × Store)) (s s' : Store) : Prop where
  later : s.Later s'
  good : Good trail s →
    Good trail s' ∧ ∀ l, Own trail l → (s'.list l).items = (s.list l).items

theorem Register.Agrees.nil {reg : Register} (h : reg.Agrees trail s) : reg.Agrees [] s where
  keeps := h.keeps
  saw _ _ saw := absurd saw not_saw_nil
  own _ _ own := absurd own.made not_madeList_nil
  made _ made := absurd made not_madeList_nil

theorem act_alike (like : s.Alike s') : Act trail s s' where
  later := .of_alike like
  houses _ x houses :=
    .inl (.inr ⟨(like.hasPlace x).mp houses.has, (like.spot x).symm.trans houses.spot⟩)
  items l _ := .inl (like.items l)

theorem rely_alike (like : s.Alike s') : Rely trail s s' where
  later := .of_alike like
  good := by
    rintro ⟨reg, agrees⟩
    obtain ⟨agrees', items⟩ := (act_alike like).agrees_other agrees.nil agrees
      fun _ made => absurd made not_madeList_nil
    exact ⟨⟨_, agrees'⟩, items⟩

def terms : Terms Store where
  inv _ := True
  rely := Rely
  keeps := Act
  enters _ _ _ _ := True
  refuses := True

theorem steady_terms : terms.Steady where
  refl _ s _ := rely_alike (.refl s)
  trans _ s₁ s₂ s₃ h h' :=
    { later := h.later.trans h'.later
      good := fun good => by
        obtain ⟨good, items⟩ := h.good good
        obtain ⟨good', items'⟩ := h'.good good
        exact ⟨good', fun l own => (items' l own).trans (items l own)⟩ }
  inv_setGuard _ _ _ _ := trivial
  rely_setGuard _ s lock g _ := rely_alike (.setGuard s lock g)

/-! ## Where programs lead -/

/-- What is said of a thread that has taken some steps, and of the store. -/
abbrev Assertion := List (Store × Store) → Store → Prop

/-- Neither others nor steps that change nothing can make the assertion wrong. -/
structure Firm (J : Assertion) : Prop where
  stable : ∀ trail s s', Good trail s → J trail s → Rely trail s s' → J trail s'
  idle : ∀ trail s s', Good trail s → J trail s → Idle s s' → J (trail ++ [(s, s')]) s'

/-- From an assertion the program leads to another one, if it gives something. -/
def Does (J : Assertion) (p : Action α) (Q : α → Assertion) : Prop :=
  ∀ g s, Good g.trail s → J g.trail s → p.wp terms
    (fun r g s => Good g.trail s ∧ ∀ x, r = .ok x → Q x g.trail s) g s

/-- A step that changes nothing. -/
def Light (f : Store → Store) : Prop := ∀ s, Idle s (f s)

section

variable {J K : Assertion} {Q R : α → Assertion}

theorem Does.pre {p : Action α} (h : Does J p Q) (pre : ∀ trail s, K trail s → J trail s) :
    Does K p Q :=
  fun g s good hK => h g s good (pre _ _ hK)

theorem Does.post {p : Action α} (h : Does J p Q) (post : ∀ x trail s, Q x trail s → R x trail s) :
    Does J p R := by
  intro g s good hJ
  refine wp_mono ?_ (h g s good hJ)
  exact fun r g s ⟨good, hQ⟩ => ⟨good, fun x hx => post x _ _ (hQ x hx)⟩

theorem does_pull {p : Action α} {fact : Prop} (h : fact → Does J p Q) :
    Does (fun trail s => J trail s ∧ fact) p Q :=
  fun g s good hJ => h hJ.2 g s good hJ.1

theorem does_exists {ι : Type} {P : ι → Assertion} {p : Action α}
    (h : ∀ i, Does (P i) p Q) : Does (fun trail s => ∃ i, P i trail s) p Q :=
  fun g s good ⟨i, hP⟩ => h i g s good hP

theorem does_pure {x : α} (h : ∀ trail s, Good trail s → J trail s → Q x trail s) :
    Does J (Pure.pure x) Q :=
  fun _ _ good hJ => ⟨good, fun _ hx => Except.ok.inj hx ▸ h _ _ good hJ⟩

theorem does_fail (fault : Fault) : Does J (Program.fail fault) Q :=
  fun _ _ good _ => ⟨good, fun _ h => nomatch h⟩

theorem does_bind {Q : β → Assertion} {p : Action α} {k : α → Action β} (hp : Does J p R)
    (hk : ∀ x, Does (R x) (k x) Q) : Does J (p >>= k) Q := by
  intro g s good hJ
  rw [wp_bind]
  refine wp_mono ?_ (hp g s good hJ)
  rintro (fault | x) g s ⟨good, hR⟩
  · exact ⟨good, fun _ h => nomatch h⟩
  · exact hk x g s good (hR x rfl)

theorem does_ofExcept {r : Except Fault α}
    (h : ∀ x, r = .ok x → ∀ trail s, Good trail s → J trail s → Q x trail s) :
    Does J (ofExcept r) Q := by
  cases r with
  | ok x => exact does_pure (h x rfl)
  | error fault => exact does_fail fault

theorem does_update {f : Store → α × Store}
    (stable : ∀ trail s s', Good trail s → J trail s → Rely trail s s' → J trail s')
    (h : ∀ trail s, Good trail s → J trail s →
      Act trail s (f s).2 ∧ Q (f s).1 (trail ++ [(s, (f s).2)]) (f s).2) :
    Does J (.update f) Q := by
  intro g s good hJ
  rw [wp_update]
  intro s' rely _
  have good' := (rely.good good).1
  obtain ⟨act, hQ⟩ := h g.trail s' good' (stable _ _ _ good hJ rely)
  exact ⟨act, trivial, good'.note act, fun _ hx => Except.ok.inj hx ▸ hQ⟩

theorem does_modify {f : Store → Store} {Q : Unit → Assertion}
    (stable : ∀ trail s s', Good trail s → J trail s → Rely trail s s' → J trail s')
    (h : ∀ trail s, Good trail s → J trail s →
      Act trail s (f s) ∧ Q () (trail ++ [(s, f s)]) (f s)) : Does J (.modify f) Q :=
  does_update (f := fun s => ((), f s)) stable h

theorem does_light {f : Store → α × Store} (firm : Firm J) (light : Light fun s => (f s).2)
    (h : ∀ trail s, Good (trail ++ [(s, (f s).2)]) (f s).2 → J (trail ++ [(s, (f s).2)]) (f s).2 →
      Q (f s).1 (trail ++ [(s, (f s).2)]) (f s).2) : Does J (.update f) Q :=
  does_update firm.stable fun trail s good hJ =>
    ⟨(light s).act, h trail s (good.note (light s).act) (firm.idle _ _ _ good hJ (light s))⟩

theorem does_read {f : Store → α} (firm : Firm J)
    (h : ∀ trail s, Good (trail ++ [(s, s)]) s → J (trail ++ [(s, s)]) s →
      Q (f s) (trail ++ [(s, s)]) s) : Does J (Action.read f) Q :=
  does_light (f := fun s => (f s, s)) firm .refl h

theorem does_guarded {lock : LockId} {mode : Mode} {body : Action α}
    (stable : ∀ trail s s', Good trail s → J trail s → Rely trail s s' → J trail s')
    (hbody : Does J body Q) : Does J (.guarded lock mode body) Q := by
  intro g s good hJ
  rw [wp_guarded]
  intro s' rely _
  have good' := (rely.good good).1
  refine ⟨trivial, ?_, fun _ _ => ⟨good', fun _ h => nomatch h⟩⟩
  exact hbody (g.enter lock mode) s' good' (stable _ _ _ good hJ rely)

theorem does_every {p : Action α} (firm : Firm J) (h : p.Every Light) : Does J p fun _ => J := by
  intro g s good hJ
  refine wp_mono (Q := fun _ g s => Good g.trail s ∧ J g.trail s) ?_ (wp_of_every _ ?_ ?_ ?_ h ⟨good, hJ⟩)
  · exact fun _ _ _ ⟨good, hJ⟩ => ⟨good, fun _ _ => hJ⟩
  · rintro f g s s' light ⟨good, hJ⟩ rely -
    have good' := (rely.good good).1
    exact ⟨(light s').act, trivial, good'.note (light s').act,
      firm.idle _ _ _ good' (firm.stable _ _ _ good hJ rely) (light s')⟩
  · rintro g s s' lock mode ⟨good, hJ⟩ rely -
    have after := And.intro (rely.good good).1 (firm.stable _ _ _ good hJ rely)
    exact ⟨trivial, after, after⟩
  · exact fun _ _ _ _ h => h

/-! ## What lasts -/

theorem Firm.and (hJ : Firm J) (hK : Firm K) : Firm fun trail s => J trail s ∧ K trail s where
  stable _ _ _ good h rely := ⟨hJ.stable _ _ _ good h.1 rely, hK.stable _ _ _ good h.2 rely⟩
  idle _ _ _ good h same := ⟨hJ.idle _ _ _ good h.1 same, hK.idle _ _ _ good h.2 same⟩

/-- No step makes the assertion wrong, whoever takes it. -/
structure Lasting (P : Assertion) : Prop where
  later : ∀ trail s s', P trail s → s.Later s' → P trail s'
  note : ∀ trail s step, P trail s → P (trail ++ [step]) s

theorem Lasting.firm {P : Assertion} (h : Lasting P) : Firm P where
  stable _ _ _ _ hP rely := h.later _ _ _ hP rely.later
  idle _ _ _ _ hP same := h.note _ _ _ (h.later _ _ _ hP (.of_adds same.adds))

theorem Lasting.and {P P' : Assertion} (h : Lasting P) (h' : Lasting P') :
    Lasting fun trail s => P trail s ∧ P' trail s :=
  ⟨fun _ _ _ hP more => ⟨h.later _ _ _ hP.1 more, h'.later _ _ _ hP.2 more⟩,
    fun _ _ _ hP => ⟨h.note _ _ _ hP.1, h'.note _ _ _ hP.2⟩⟩

theorem lasting_true : Lasting fun _ _ => True := ⟨fun _ _ _ _ _ => trivial, fun _ _ _ _ => trivial⟩

theorem firm_true : Firm fun _ _ => True := lasting_true.firm

theorem lasting_hasNode (n : Node) : Lasting fun _ s => s.HasNode n :=
  ⟨fun _ _ _ h later => later.nodes n h, fun _ _ _ h => h⟩

theorem lasting_saw (l : ListId) (x : Place) : Lasting fun trail _ => Saw trail l x :=
  ⟨fun _ _ _ h _ => h, fun _ _ step h => h.mono [step]⟩

theorem lasting_suits (x : Place) (v : Value) : Lasting fun _ s => s.Suits x v :=
  ⟨fun _ _ _ h later => later.suits h, fun _ _ _ h => h⟩

/-- What lasts need not be said of each step. -/
theorem does_frame {P : Assertion} (lasting : Lasting P) {p : Action α} (h : Does J p Q) :
    Does (fun trail s => J trail s ∧ P trail s) p fun x trail s => Q x trail s ∧ P trail s := by
  have frame {R : Except Fault α → Progress Store → Store → Prop} (p : Action α)
      (g : Progress Store) (s : Store) (hp : p.wp terms R g s) (hP : P g.trail s) :
      p.wp terms (fun r g s => R r g s ∧ P g.trail s) g s := by
    -- It outlasts each step of the program, and what others do before it.
    induction p generalizing g s with
    | pure a => exact ⟨hp, hP⟩
    | fail fault => exact ⟨hp, hP⟩
    | act f next ih =>
        intro s' rely hinv
        obtain ⟨act, hafter, hnext⟩ := hp s' rely hinv
        have later := lasting.later _ _ _ (lasting.later _ _ _ hP rely.later) act.later
        exact ⟨act, hafter, ih s' _ _ hnext (lasting.note _ _ _ later)⟩
    | enter lock mode next ih =>
        intro s' rely hinv
        obtain ⟨henters, hnone, hsome⟩ := hp s' rely hinv
        have later := lasting.later _ _ _ hP rely.later
        exact ⟨henters, ih none _ _ hnone later, fun hr fault => ih (some fault) _ _ (hsome hr fault) later⟩
    | leave lock mode next ih => exact ih _ _ hp hP
    | call request next ih => exact ih _ _ hp hP
  rintro g s good ⟨hJ, hP⟩
  refine wp_mono ?_ (frame p g s (h g s good hJ) hP)
  exact fun r g s ⟨⟨good, hQ⟩, hP⟩ => ⟨good, fun x hx => ⟨hQ x hx, hP⟩⟩

theorem does_along {P : Assertion} (lasting : Lasting P) {p : Action α}
    (pre : ∀ trail s, P trail s → J trail s) (h : Does J p Q) :
    Does P p fun x trail s => Q x trail s ∧ P trail s :=
  (does_frame lasting h).pre fun trail s hP => ⟨pre trail s hP, hP⟩

end

end NinjaFile.Housing
