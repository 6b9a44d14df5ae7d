import NinjaFile.Proofs.Document.Building
import NinjaFile.Proofs.Twin.Attaching
import NinjaFile.Proofs.Twin.Logging

/-!
# Inserting into twins

What is appended to a document takes on the ownership that the document has on either
side, and has the same place on both.
-/

namespace NinjaFile

open Action Program

namespace Store

variable {s t : Store} {d : DocumentId} {v : Value}

namespace Tidy

/-- Nodes take on the ownership of a document, and nothing else changes. -/
theorem alone_take (h : s.Tidy) (d : DocumentId) (hv : ∀ n, v.node? = some n → s.HasNode n) :
    ∃ t, ((s.document d).arena.adopt v).alone s = (.ok (), t) ∧ s.Recast t ∧
      (∀ n, v.node? = some n → ∀ q ∈ n.parts,
        t.owner (.part n q) = (s.document d).arena.ownership) ∧
      ∀ n q, s.HasPlace (.part n q) → v.node? ≠ some n →
        t.owner (.part n q) = s.owner (.part n q) := by
  rw [Arena.adopt]
  cases hn : v.node? with
  | none =>
      refine ⟨s, rfl, .refl h, ?_, fun _ _ _ _ => rfl⟩
      rintro _ ⟨⟩
  | some n =>
      have own : ((s.document d).arena.member "ownership").alone s =
          (.ok (.ownership (s.document d).arena.ownership), s) :=
        alone_storedMember rfl (h.bare _) rfl
      obtain ⟨t, adopted, recast, taken, others⟩ :=
        h.alone_adopt (hv n hn) (s.document d).arena.ownership
      refine ⟨t, (alone_bind_ok own _).trans adopted, recast, ?_, ?_⟩
      · rintro _ ⟨⟩
        exact taken
      · intro m q hq hne
        refine others _ hq fun r heq => hne ?_
        cases heq
        rfl

/-- A value is put behind the statements of a document and takes on its ownership. -/
theorem alone_insert (h : s.Tidy) (hd : s.HasDocument d)
    (hv : ∀ n, v.node? = some n → s.HasNode n) :
    ∃ t, s.Recast t ∧
      ((s.document d).arena.adopt v >>= fun _ => (s.document d).arena.statements.add v).alone s =
        (.ok (s.held (.statements d)).length,
          t.modifyList (t.spot (.statements d)) (·.append [v])) ∧
      s.Moved d v (t.modifyList (t.spot (.statements d)) (·.append [v])) := by
  obtain ⟨t, took, recast, taken, others⟩ := h.alone_take d hv
  have place : t.HasPlace (.statements d) := (recast.hasPlace (.statements d)).mpr hd
  have spot : t.spot (.statements d) = (s.document d).arena.statements := by
    rw [Store.spot, Store.document, Store.document, recast.documents]
  have added := ListId.alone_add (recast.tidy.open_spot place) v
  have count : (t.list (t.spot (.statements d))).items = s.held (.statements d) :=
    recast.held (.statements d) hd
  rw [count] at added
  refine ⟨t, recast, (alone_bind_ok took _).trans (spot ▸ added), ?_⟩
  have documents : t.documents = s.documents := recast.documents
  refine ⟨⟨fun n => (recast.nodes n).mpr, ?_, fun e _ => ?_, ?_⟩, fun e => ?_, place, fun n hn => ?_,
    fun n hn q hq => ?_, fun n q hq hne => ?_⟩
  · exact Nat.le_of_eq (congrArg Table.size documents.symm)
  · exact congrArg (Table.get · e.index) documents
  · exact Nat.le_of_eq (congrArg Table.size recast.sources.symm)
  · by_cases he : s.HasDocument e
    · have he' : t.HasDocument e := (recast.hasPlace (.statements e)).mpr he
      rw [stated_eq he, stated_eq (s := t.modifyList _ _) he',
        recast.tidy.held_append place (y := .statements e) he', recast.held (.statements e) he]
      by_cases heq : e = d <;> simp [heq]
    · have he' : ¬ t.HasDocument e := fun known => he ((recast.hasPlace (.statements e)).mp known)
      have other : e ≠ d := fun heq => he (heq ▸ hd)
      rw [stated_eq_nil he, if_neg other]
      exact stated_eq_nil (s := t.modifyList _ _) he'
  · exact (recast.nodes n).mpr (hv n hn)
  · rw [owner_append]
    exact (taken n hn q hq).trans (congrArg (·.arena.ownership)
      (congrArg (Table.get · d.index) documents).symm)
  · rw [owner_append]
    exact others n q hq hne

end Tidy

end Store

namespace Twin

open Store

variable {s s' : Store} {v w : Value} {a a' : Arena}

theorem inStep_take (h : s.Twin s') (ha : (s.scope s').arenas a a') (hv : Like (s.scope s') v w) :
    InStep Once (a.adopt v >>= fun _ => a.statements.add v)
      (a'.adopt w >>= fun _ => a'.statements.add w) s s' fun i j _ _ => j = i := by
  obtain ⟨d, hd, rfl, rfl⟩ := ha
  have hd' := (h.hasDocument d).mpr hd
  have known (n : Node) (hn : v.node? = some n) : s.HasNode n := (hv.of_node? hn).2.2
  have known' (n : Node) (hn : w.node? = some n) : s'.HasNode n :=
    (h.nodes n).mpr (known n (hv.node?_eq ▸ hn))
  obtain ⟨t, recast, added, moved⟩ := h.left.alone_insert hd known
  obtain ⟨t', recast', added', moved'⟩ := h.right.alone_insert hd' known'
  have twin := h.recast recast recast'
  have place : t.HasPlace (.statements d) := (recast.hasPlace (.statements d)).mpr hd
  have scope : t.scope t' = s.scope s' :=
    scope_congr recast.documents recast'.documents recast.nodes (by rw [recast.sources])
  have like : LikeAll (t.scope t') [v] [w] := .cons (scope ▸ hv) .nil
  have twin := twin.append place like nofun nofun
  refine inStep_of_alone added added' ⟨twin, .inr ⟨d, v, moved⟩, .inr ⟨d, w, moved'⟩, [], ?_, ?_⟩
    (h.held (.statements d) hd).length_eq.symm
  · simp [modifyList, recast.logging]
  · simp [modifyList, recast'.logging]

theorem inStep_logAppended (h : s.Twin s') (ha : (s.scope s').arenas a a')
    (hv : Like (s.scope s') v w) (index : Nat) :
    InStep Still (a.logAppended v index) (a'.logAppended w index) s s' fun _ _ _ _ => True := by
  refine inStep_bind (inStep_likeMember h (.arena ha) (by decide)) fun x y t t' after logger => ?_
  refine inStep_bind (inStep_same after.twin (logger.logger?_eq "debug"))
    fun _ view u u' next heq => ?_
  subst heq
  have like := hv.mono ((after.within h).trans (next.within after.twin))
  refine inStep_bind (inStep_kindWord next.twin like) fun _ word t t' after heq => ?_
  subst heq
  exact inStep_logBy after.twin view _ _

theorem inStep_append (h : s.Twin s') (ha : (s.scope s').arenas a a')
    (hv : Like (s.scope s') v w) :
    InStep Once (a.append v) (a'.append w) s s' fun i j _ _ => j = i := by
  rw [Arena.append, Arena.append, ← LawfulMonad.bind_assoc, ← LawfulMonad.bind_assoc]
  refine inStep_bind_kept (inStep_take h ha hv) fun _ i t t' after heq => ?_
  subst heq
  have within := after.within h
  refine inStep_bind (inStep_logAppended after.twin (within.arenas _ _ ha) (hv.mono within) i)
    fun _ _ t t' after _ => ?_
  exact inStep_pure after.twin rfl

/-! ## Handles -/

theorem inStep_handleMake (h : s.Twin s') (ha : (s.scope s').arenas a a') (e : Expected) (i : Int) :
    InStep Still (Handle.make e (.object (.arena a)) (.int i))
      (Handle.make e (.object (.arena a')) (.int i)) s s' fun k k' t t' =>
        Like (t.scope t') k.toValue k'.toValue := by
  refine inStep_of_alone rfl rfl (.withSerial h (congrArg (· + 1) h.serial)) ?_
  change Like (s.scope s') (Handle.toValue ⟨s.serial, e, a, i⟩) (Handle.toValue ⟨s'.serial, e, a', i⟩)
  rw [h.serial]
  exact .handle ha

theorem inStep_insert (h : s.Twin s') (ha : (s.scope s').arenas a a') (e : Expected)
    (hv : Like (s.scope s') v w) :
    InStep Once ((Value.object (.arena a)).insert e v) ((Value.object (.arena a')).insert e w) s s'
      fun k k' t t' => Like (t.scope t') k.toValue k'.toValue := by
  refine inStep_bind_kept (inStep_append h ha hv) fun _ i t t' after heq => ?_
  subst heq
  exact (inStep_handleMake after.twin ((after.within h).arenas _ _ ha) e i).weaken

section Handles

variable {k k' : Handle}

theorem inStep_arenaOwnership (h : s.Twin s') (ha : (s.scope s').arenas a a') :
    InStep Still ((Value.object (.arena a)).member "ownership")
      ((Value.object (.arena a')).member "ownership") s s' fun v w _ _ => LikeOwnership v w :=
  (inStep_member h (.arena ha) "ownership").mono fun v w _ _ shown => by
    cases shown with
    | like like => exact like.ownership
    | ownership => exact .ok trivial
    | list | config => exact .error _

theorem inStep_build (h : s.Twin s') (hk : Like (s.scope s') k.toValue k'.toValue)
    (hv : Like (s.scope s') v w) :
    InStep Once (k.build v) (k'.build w) s s' fun m m' t t' =>
      Like (t.scope t') m.toValue m'.toValue := by
  refine inStep_bind (inStep_statements h hk) fun _ _ t t' after found => ?_
  obtain ⟨a, a', hx, hy, ha⟩ := found
  subst hx hy
  have within := after.within h
  refine inStep_bind (inStep_arenaOwnership after.twin ha) fun own own' u u' next howner => ?_
  have within := within.trans (next.within after.twin)
  refine inStep_bind (inStep_buildMake next.twin (hk.mono within) (hv.mono within) howner)
    fun _ b t t' made found => ?_
  obtain ⟨heq, known⟩ := found
  subst heq
  have within := within.trans (made.within next.twin)
  refine inStep_bind (inStep_statements made.twin (hk.mono within))
    fun _ _ u u' last found => ?_
  obtain ⟨a, a', hx, hy, ha⟩ := found
  subst hx hy
  exact inStep_insert last.twin ha .build (.node (n := .build b) (last.left.kept.nodes _ known))

theorem inStep_rule {name name' : Value} (h : s.Twin s')
    (hk : Like (s.scope s') k.toValue k'.toValue) (hname : Like (s.scope s') name name')
    (hv : Like (s.scope s') v w) :
    InStep Once (k.rule name v) (k'.rule name' w) s s' fun m m' t t' =>
      Like (t.scope t') m.toValue m'.toValue := by
  refine inStep_bind (inStep_statements h hk) fun _ _ t t' after found => ?_
  obtain ⟨a, a', hx, hy, ha⟩ := found
  subst hx hy
  have within := after.within h
  refine inStep_bind (inStep_arenaOwnership after.twin ha) fun own own' u u' next howner => ?_
  have within := within.trans (next.within after.twin)
  refine inStep_bind (inStep_ruleMake next.twin (hname.mono within) (hv.mono within) howner)
    fun _ r t t' made found => ?_
  obtain ⟨heq, known⟩ := found
  subst heq
  have within := within.trans (made.within next.twin)
  refine inStep_bind (inStep_usePool made.twin (.node known) (hk.mono within))
    fun _ _ u u' used _ => ?_
  have within := within.trans (used.within made.twin)
  have known := used.left.nodes _ known
  refine inStep_bind (inStep_statements used.twin (hk.mono within))
    fun _ _ t t' last found => ?_
  obtain ⟨a, a', hx, hy, ha⟩ := found
  subst hx hy
  exact inStep_insert last.twin ha .rule (.node (n := .rule r) (last.left.kept.nodes _ known))

end Handles

/-! ## Documents -/

section Documents

variable {d : DocumentId}

theorem inStep_statementsOf (h : s.Twin s') (hd : s.HasDocument d) :
    InStep Still d.statements d.statements s s' fun v w t t' =>
      ∃ a a', v = .object (.arena a) ∧ w = .object (.arena a') ∧ (t.scope t').arenas a a' :=
  inStep_of_alone (alone_storedMember rfl (h.left.bare _) rfl)
    (alone_storedMember rfl (h.right.bare _) rfl) (.refl h) ⟨_, _, rfl, rfl, d, hd, rfl, rfl⟩

theorem inStep_insertInto (h : s.Twin s') (hd : s.HasDocument d) (e : Expected)
    (hv : Like (s.scope s') v w) :
    InStep Once (d.insert e v) (d.insert e w) s s' fun k k' t t' =>
      Like (t.scope t') k.toValue k'.toValue := by
  refine inStep_bind (inStep_statementsOf h hd) fun _ _ t t' after found => ?_
  obtain ⟨a, a', hx, hy, ha⟩ := found
  subst hx hy
  exact inStep_insert after.twin ha e (hv.mono (after.within h))

theorem inStep_add (h : s.Twin s') (hd : s.HasDocument d) (hv : Like (s.scope s') v w) :
    InStep Once (d.add v) (d.add w) s s' fun _ _ _ _ => True := by
  refine inStep_bind (inStep_statementsOf h hd) fun _ _ t t' after found => ?_
  obtain ⟨a, a', hx, hy, ha⟩ := found
  subst hx hy
  exact inStep_bind_kept (inStep_append after.twin ha (hv.mono (after.within h)))
    fun _ _ t t' after _ => inStep_pure after.twin trivial

theorem inStep_addMade {p p' : Action Value} (hd : s.HasDocument d)
    (hp : InStep Still p p' s s' fun v w t t' => Like (t.scope t') v w) :
    InStep Once (p >>= fun v => d.add v) (p' >>= fun v => d.add v) s s' fun _ _ _ _ => True :=
  inStep_bind hp fun _ _ _ _ after like => inStep_add after.twin (after.left.kept.hasDocument hd) like

end Documents

end Twin

end NinjaFile
