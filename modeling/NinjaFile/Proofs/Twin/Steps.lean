import NinjaFile.Proofs.Twin.Stores

/-!
# Going in step

Two actions go in step from twins if they lead to twins again, end in results that go
together or in the same fault, and write the same lines to the log.  Of each of them it is
kept what it may have done to its own store: looked around, made new things, or also
appended one value to the statements of a document.
-/

namespace NinjaFile

open Action Program

/-! ## What an action may do to its store -/

namespace Store

/-- The statements of a document; one that is not there has none. -/
def stated (s : Store) (d : DocumentId) : List Value :=
  if d.index < s.documents.size then s.held (.statements d) else []

theorem stated_eq {s : Store} {d : DocumentId} (hd : s.HasDocument d) :
    s.stated d = s.held (.statements d) := if_pos hd

theorem stated_eq_nil {s : Store} {d : DocumentId} (hd : ¬ s.HasDocument d) : s.stated d = [] :=
  if_neg hd

/-- There is more than before, and every document is in its place. -/
structure Grown (s t : Store) : Prop where
  nodes : ∀ n, s.HasNode n → t.HasNode n
  documents : s.documents.size ≤ t.documents.size
  document : ∀ d, s.HasDocument d → t.document d = s.document d
  sources : s.sources.size ≤ t.sources.size

/-- Lists, nodes and documents are as they were. -/
def Still (s t : Store) : Prop :=
  ∃ (sources : Table Source) (files : FileTree) (logging : Logging) (serial : Serial),
    sources.size = s.sources.size ∧
      t = { s with sources := sources, files := files, logging := logging, serial := serial }

/-- Nothing was appended, and no part has changed its ownership. -/
structure Kept (s t : Store) : Prop extends s.Grown t where
  statements : ∀ d, t.stated d = s.stated d
  owners : ∀ n q, s.HasPlace (.part n q) → t.owner (.part n q) = s.owner (.part n q)

/-- A value was appended to a document and took on its ownership. -/
structure Moved (s : Store) (d : DocumentId) (v : Value) (t : Store) : Prop
    extends s.Grown t where
  statements : ∀ e, t.stated e = s.stated e ++ if e = d then [v] else []
  known : t.HasDocument d
  node : ∀ n, v.node? = some n → t.HasNode n
  taken : ∀ n, v.node? = some n → ∀ q ∈ n.parts,
    t.owner (.part n q) = (t.document d).arena.ownership
  others : ∀ n q, s.HasPlace (.part n q) → v.node? ≠ some n →
    t.owner (.part n q) = s.owner (.part n q)

/-- At most one value was appended. -/
def Once (s t : Store) : Prop := s.Kept t ∨ ∃ d v, s.Moved d v t

variable {s t u : Store}

namespace Grown

theorem hasPlace (h : s.Grown t) {x : Place} (hx : s.HasPlace x) : t.HasPlace x := by
  cases x with
  | part n q => exact ⟨h.nodes n hx.1, hx.2⟩
  | statements d => exact Nat.lt_of_lt_of_le hx h.documents

theorem hasDocument (h : s.Grown t) {d : DocumentId} (hd : s.HasDocument d) :
    t.HasDocument d := h.hasPlace (x := .statements d) hd

theorem refl (s : Store) : s.Grown s :=
  ⟨fun _ => id, Nat.le_refl _, fun _ _ => rfl, Nat.le_refl _⟩

theorem trans (h : s.Grown t) (h' : t.Grown u) : s.Grown u where
  nodes n hn := h'.nodes n (h.nodes n hn)
  documents := Nat.le_trans h.documents h'.documents
  document d hd := (h'.document d (h.hasDocument hd)).trans (h.document d hd)
  sources := Nat.le_trans h.sources h'.sources

end Grown

namespace Still

theorem refl (s : Store) : s.Still s := ⟨_, _, _, _, rfl, rfl⟩

theorem trans (h : s.Still t) (h' : t.Still u) : s.Still u := by
  obtain ⟨_, _, _, _, size, rfl⟩ := h
  obtain ⟨_, _, _, _, size', rfl⟩ := h'
  exact ⟨_, _, _, _, size'.trans size, rfl⟩

theorem source (h : s.Still t) {i : SourceId} (hi : i.index < s.sources.size) :
    i.index < t.sources.size := by
  obtain ⟨_, _, _, _, size, rfl⟩ := h
  exact size ▸ hi

theorem kept (h : s.Still t) : s.Kept t := by
  obtain ⟨_, _, _, _, size, rfl⟩ := h
  exact ⟨⟨fun _ => id, Nat.le_refl _, fun _ _ => rfl, Nat.le_of_eq size.symm⟩, fun _ => rfl,
    fun _ _ _ => rfl⟩

end Still

namespace Kept

theorem refl (s : Store) : s.Kept s := (Still.refl s).kept

theorem trans (h : s.Kept t) (h' : t.Kept u) : s.Kept u where
  toGrown := h.toGrown.trans h'.toGrown
  statements d := (h'.statements d).trans (h.statements d)
  owners n q hq := (h'.owners n q (h.hasPlace hq)).trans (h.owners n q hq)

theorem moved (h : s.Kept t) {d : DocumentId} {v : Value} (h' : t.Moved d v u) :
    s.Moved d v u where
  toGrown := h.toGrown.trans h'.toGrown
  statements e := by rw [h'.statements, h.statements]
  known := h'.known
  node := h'.node
  taken := h'.taken
  others n q hq hv := (h'.others n q (h.hasPlace hq) hv).trans (h.owners n q hq)

theorem of_recast (h : s.Recast t)
    (owners : ∀ n q, s.HasPlace (.part n q) → t.owner (.part n q) = s.owner (.part n q)) :
    s.Kept t where
  nodes n := (h.nodes n).mpr
  documents := Nat.le_of_eq (congrArg Table.size h.documents.symm)
  document d _ := by rw [Store.document, Store.document, h.documents]
  sources := Nat.le_of_eq (congrArg Table.size h.sources.symm)
  statements d := by
    rw [stated, stated, h.documents]
    split
    · next hd => exact h.held (.statements d) hd
    · rfl
  owners := owners

end Kept

theorem Moved.kept {d : DocumentId} {v : Value} (h : s.Moved d v t) (h' : t.Kept u) :
    s.Moved d v u where
  toGrown := h.toGrown.trans h'.toGrown
  statements e := by rw [h'.statements, h.statements]
  known := h'.hasDocument h.known
  node n hn := h'.nodes n (h.node n hn)
  taken n hn q hq := by
    rw [h'.owners n q ⟨h.node n hn, hq⟩, h.taken n hn q hq, h'.document d h.known]
  others n q hq hv := (h'.owners n q (h.hasPlace hq)).trans (h.others n q hq hv)

namespace Once

theorem grown (h : s.Once t) : s.Grown t := by
  obtain h | ⟨d, v, h⟩ := h
  · exact h.toGrown
  · exact h.toGrown

theorem kept (h : s.Once t) (h' : t.Kept u) : s.Once u := by
  obtain h | ⟨d, v, h⟩ := h
  · exact .inl (h.trans h')
  · exact .inr ⟨d, v, h.kept h'⟩

end Once

end Store

open Store

/-- What the first relation allows may come before what the other one allows. -/
class Precedes (R₁ R : Store → Store → Prop) : Prop where
  left : ∀ {s t}, R₁ s t → R s t
  comp : ∀ {s t u}, R₁ s t → R t u → R s u

instance : Precedes Still Still := ⟨id, Still.trans⟩
instance : Precedes Kept Kept := ⟨id, Kept.trans⟩
instance : Precedes Grown Grown := ⟨id, Grown.trans⟩
instance : Precedes Still Kept := ⟨Still.kept, fun h h' => h.kept.trans h'⟩
instance : Precedes Kept Grown := ⟨Kept.toGrown, fun h h' => h.toGrown.trans h'⟩

instance : Precedes Kept Once where
  left := .inl
  comp h h' := by
    obtain h' | ⟨d, v, h'⟩ := h'
    · exact .inl (h.trans h')
    · exact .inr ⟨d, v, h.moved h'⟩

instance : Precedes Still Once := ⟨fun h => .inl h.kept, fun h h' => Precedes.comp h.kept h'⟩
instance : Precedes Still Grown :=
  ⟨fun h => h.kept.toGrown, fun h h' => h.kept.toGrown.trans h'⟩
instance : Precedes Once Grown := ⟨Once.grown, fun h h' => h.grown.trans h'⟩

/-! ## Two actions side by side -/

namespace Twin

/-- What came of twins. -/
structure After (R : Store → Store → Prop) (s s' t t' : Store) : Prop where
  twin : t.Twin t'
  left : R s t
  right : R s' t'
  lines : ∃ new, t.logging.lines = s.logging.lines ++ new ∧
    t'.logging.lines = s'.logging.lines ++ new

variable {R R₁ R₂ : Store → Store → Prop} {s s' t t' u u' : Store}

theorem scope_within (h : s.Twin s') (hl : s.Grown t) (hr : s'.Grown t') :
    (s.scope s').Within (t.scope t') := by
  refine ⟨?_, hl.nodes, fun d => hl.hasDocument, fun i hi => Nat.lt_of_lt_of_le hi hl.sources⟩
  rintro a a' ⟨d, hd, rfl, rfl⟩
  refine ⟨d, hl.hasDocument hd, ?_, ?_⟩
  · rw [hl.document d hd]
  · rw [hr.document d ((h.hasDocument d).mpr hd)]

namespace After

theorem refl [Precedes Still R] (h : s.Twin s') : After R s s' s s' :=
  ⟨h, Precedes.left (Still.refl s), Precedes.left (Still.refl s'), [], by simp, by simp⟩

theorem weaken [Precedes R₁ R] (h : After R₁ s s' t t') : After R s s' t t' :=
  ⟨h.twin, Precedes.left h.left, Precedes.left h.right, h.lines⟩

theorem comp (hcomp : ∀ s t u, R₁ s t → R₂ t u → R s u) (h : After R₁ s s' t t')
    (h' : After R₂ t t' u u') : After R s s' u u' := by
  obtain ⟨new, hl, hr⟩ := h.lines
  obtain ⟨more, hl', hr'⟩ := h'.lines
  refine ⟨h'.twin, hcomp _ _ _ h.left h'.left, hcomp _ _ _ h.right h'.right, new ++ more, ?_, ?_⟩
  · rw [hl', hl, List.append_assoc]
  · rw [hr', hr, List.append_assoc]

theorem trans [Precedes R₁ R] (h : After R₁ s s' t t') (h' : After R t t' u u') :
    After R s s' u u' := by
  have comp : ∀ s t u, R₁ s t → R t u → R s u := fun _ _ _ => Precedes.comp
  exact h.comp comp h'

theorem within [Precedes R Grown] (h : After R s s' t t') (twin : s.Twin s') :
    (s.scope s').Within (t.scope t') :=
  scope_within twin (Precedes.left h.left) (Precedes.left h.right)

theorem of_recast (h : s.Twin s') (hl : s.Recast t) (hr : s'.Recast t')
    (kept : s.Kept t) (kept' : s'.Kept t') : After Kept s s' t t' :=
  ⟨h.recast hl hr, kept, kept', [], by rw [hl.logging]; simp, by rw [hr.logging]; simp⟩

theorem withSerial (h : s.Twin s') {n m : Serial} (heq : m = n) :
    After Still s s' { s with serial := n } { s' with serial := m } := by
  subst heq
  exact ⟨h.withSerial m, ⟨_, _, _, _, rfl, rfl⟩, ⟨_, _, _, _, rfl, rfl⟩, [], by simp, by simp⟩

end After

/-- Two actions end well with results that go together, or in the same fault. -/
inductive Ends {α β : Type} (R : Store → Store → Prop) (s s' : Store)
    (Q : α → β → Store → Store → Prop) :
    Except Fault α × Store → Except Fault β × Store → Prop where
  | ok {a : α} {b : β} {t t' : Store} (after : After R s s' t t') (hQ : Q a b t t') :
      Ends R s s' Q (.ok a, t) (.ok b, t')
  | error {fault : Fault} {t t' : Store} (after : After R s s' t t') :
      Ends R s s' Q (.error fault, t) (.error fault, t')

/-- Two actions go in step. -/
def InStep {α β : Type} (R : Store → Store → Prop) (p : Action α) (p' : Action β)
    (s s' : Store) (Q : α → β → Store → Store → Prop) : Prop :=
  Ends R s s' Q (p.alone s) (p'.alone s')

section

variable {α β α' β' : Type} {p : Action α} {p' : Action β} {Q Q' : α → β → Store → Store → Prop}

theorem InStep.mono (h : InStep R p p' s s' Q) (hQ : ∀ a b t t', Q a b t t' → Q' a b t t') :
    InStep R p p' s s' Q' := by
  rw [InStep] at h ⊢
  generalize p.alone s = r at h
  generalize p'.alone s' = r' at h
  cases h with
  | ok after h => exact .ok after (hQ _ _ _ _ h)
  | error after => exact .error after

theorem InStep.weaken [Precedes R₁ R] (h : InStep R₁ p p' s s' Q) : InStep R p p' s s' Q := by
  rw [InStep] at h ⊢
  generalize p.alone s = r at h
  generalize p'.alone s' = r' at h
  cases h with
  | ok after h => exact .ok after.weaken h
  | error after => exact .error after.weaken

theorem inStep_of_alone {a : α} {b : β} (h : p.alone s = (.ok a, t)) (h' : p'.alone s' = (.ok b, t'))
    (after : After R s s' t t') (hQ : Q a b t t') : InStep R p p' s s' Q := by
  rw [InStep, h, h']
  exact .ok after hQ

theorem inStep_pure [Precedes Still R] (h : s.Twin s') {a : α} {b : β} (hQ : Q a b s s') :
    InStep R (Pure.pure a : Action α) (Pure.pure b : Action β) s s' Q :=
  inStep_of_alone rfl rfl (.refl h) hQ

theorem inStep_fail [Precedes Still R] (h : s.Twin s') (fault : Fault) :
    InStep R (Program.fail fault : Action α) (Program.fail fault : Action β) s s' Q :=
  .error (.refl h)

theorem ends_of_agree [Precedes Still R] (h : s.Twin s') {r : Except Fault α}
    {r' : Except Fault β} (agree : Agree (fun a b => Q a b s s') r r') :
    Ends R s s' Q (r, s) (r', s') := by
  cases agree with
  | ok hQ => exact .ok (.refl h) hQ
  | error fault => exact .error (.refl h)

theorem inStep_ofExcept (h : s.Twin s') {r : Except Fault α}
    {r' : Except Fault β} (agree : Agree (fun a b => Q a b s s') r r') :
    InStep Still (ofExcept r) (ofExcept r') s s' Q := by
  rw [InStep, alone_ofExcept, alone_ofExcept]
  exact ends_of_agree h agree

theorem inStep_same (h : s.Twin s') {r r' : Except Fault α} (heq : r' = r) :
    InStep Still (ofExcept r) (ofExcept r') s s' fun a b _ _ => b = a :=
  inStep_ofExcept h (.of_eq heq)

theorem inStep_read (h : s.Twin s') {f : Store → α} {f' : Store → β}
    (hQ : Q (f s) (f' s') s s') : InStep Still (Action.read f) (Action.read f') s s' Q :=
  inStep_of_alone rfl rfl (.refl h) hQ

theorem inStep_comp (left : ∀ s t, R₁ s t → R s t)
    (comp : ∀ s t u, R₁ s t → R₂ t u → R s u) {k : α → Action α'} {k' : β → Action β'}
    {Q' : α' → β' → Store → Store → Prop} (h : InStep R₁ p p' s s' Q)
    (hk : ∀ a b t t', After R₁ s s' t t' → Q a b t t' → InStep R₂ (k a) (k' b) t t' Q') :
    InStep R (p >>= k) (p' >>= k') s s' Q' := by
  rw [InStep] at h ⊢
  rw [alone_bind, alone_bind]
  generalize p.alone s = r at h
  generalize p'.alone s' = r' at h
  cases h with
  | error after => exact .error ⟨after.twin, left _ _ after.left, left _ _ after.right, after.lines⟩
  | @ok a b t t' after hQ =>
      have next := hk a b t t' after hQ
      rw [InStep] at next
      dsimp only
      generalize (k a).alone t = r at next
      generalize (k' b).alone t' = r' at next
      cases next with
      | ok after' hQ' => exact .ok (after.comp comp after') hQ'
      | error after' => exact .error (after.comp comp after')

theorem inStep_bind [Precedes R₁ R] {k : α → Action α'} {k' : β → Action β'}
    {Q' : α' → β' → Store → Store → Prop} (h : InStep R₁ p p' s s' Q)
    (hk : ∀ a b t t', After R₁ s s' t t' → Q a b t t' → InStep R (k a) (k' b) t t' Q') :
    InStep R (p >>= k) (p' >>= k') s s' Q' := by
  have left : ∀ s t, R₁ s t → R s t := fun _ _ => Precedes.left
  have comp : ∀ s t u, R₁ s t → R t u → R s u := fun _ _ _ => Precedes.comp
  exact inStep_comp left comp h hk

/-- A beginning of both actions may be run apart. -/
theorem InStep.of_leading [Precedes R₁ R] {q : Action α} {q' : Action β}
    (after : After R₁ s s' t t') (left : p.alone s = q.alone t) (right : p'.alone s' = q'.alone t')
    (h : InStep R q q' t t' Q) : InStep R p p' s s' Q := by
  rw [InStep] at h ⊢
  rw [left, right]
  generalize q.alone t = r at h
  generalize q'.alone t' = r' at h
  cases h with
  | ok next hQ => exact .ok (after.trans next) hQ
  | error next => exact .error (after.trans next)

theorem inStep_bind_kept {k : α → Action α'} {k' : β → Action β'}
    {Q' : α' → β' → Store → Store → Prop} (h : InStep Once p p' s s' Q)
    (hk : ∀ a b t t', After Once s s' t t' → Q a b t t' → InStep Kept (k a) (k' b) t t' Q') :
    InStep Once (p >>= k) (p' >>= k') s s' Q' := by
  have comp : ∀ s t u, Once s t → Kept t u → Once s u := fun _ _ _ => Once.kept
  exact inStep_comp (fun _ _ => id) comp h hk

end

/-! ## Actions that look at nothing -/

/-- An action that ends the same way in every tidy store and does nothing to it. -/
def Steady {α : Type} (p : Action α) : Prop :=
  ∃ r, ∀ s : Store, s.Tidy → p.alone s = (r, s)

theorem Steady.inStep {α : Type} {p : Action α} (hp : Steady p) (h : s.Twin s') :
    InStep Still p p s s' fun a b _ _ => b = a := by
  obtain ⟨r, steady⟩ := hp
  rw [InStep, steady s h.left, steady s' h.right]
  exact ends_of_agree h (.of_eq rfl)

theorem Steady.bind {α β : Type} {p : Action α} {k : α → Action β} (hp : Steady p)
    (hk : ∀ a, Steady (k a)) : Steady (p >>= k) := by
  obtain ⟨r, steady⟩ := hp
  cases r with
  | error fault => exact ⟨.error fault, fun s h => by rw [alone_bind, steady s h]⟩
  | ok a =>
      obtain ⟨r, next⟩ := hk a
      exact ⟨r, fun s h => by rw [alone_bind_ok (steady s h), next s h]⟩

theorem steady_pure {α : Type} (a : α) : Steady (Pure.pure a : Action α) := ⟨.ok a, fun _ _ => rfl⟩

theorem steady_fail {α : Type} (fault : Fault) : Steady (Program.fail fault : Action α) :=
  ⟨.error fault, fun _ _ => rfl⟩

end Twin

end NinjaFile
