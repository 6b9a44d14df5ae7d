import NinjaFile.Proofs.Twin.Logging
import NinjaFile.Proofs.Twin.Rendering

/-!
# How twins are shown

What is shown of values that are alike differs in the names of ownerships at most, which
are shown with the lists of nodes.
-/

namespace NinjaFile

/-- Texts that differ at most in names of ownerships that are parts of them. -/
inductive Echo : String → String → Prop where
  | same (text : String) : Echo text text
  | ownership (o o' : Ownership) : Echo o.name o'.name
  | append {x x' y y' : String} (left : Echo x x') (right : Echo y y') : Echo (x ++ y) (x' ++ y')

namespace Echo

variable {x x' : String} {xs ys : List String}

theorem before (h : Echo x x') (text : String) : Echo (text ++ x) (text ++ x') :=
  .append (.same text) h

theorem behind (h : Echo x x') (text : String) : Echo (x ++ text) (x' ++ text) :=
  .append h (.same text)

theorem intercalate (separator : String) (h : List.Forall₂ Echo xs ys) :
    Echo (separator.intercalate xs) (separator.intercalate ys) := by
  induction h with
  | nil => exact .same ""
  | cons first rest ih =>
      cases rest with
      | nil =>
          rw [String.intercalate_singleton, String.intercalate_singleton]
          exact first
      | cons =>
          rw [String.intercalate_cons_cons, String.intercalate_cons_cons]
          exact .append (first.behind separator) ih

open Display

theorem list (h : List.Forall₂ Echo xs ys) : Echo (Display.list xs) (Display.list ys) :=
  ((intercalate ", " h).before "[").behind "]"

theorem tuple (h : List.Forall₂ Echo xs ys) : Echo (Display.tuple xs) (Display.tuple ys) := by
  rcases h with _ | ⟨first, _ | ⟨second, rest⟩⟩
  · exact .same _
  · exact (first.before "(").behind ",)"
  · exact ((intercalate ", " (.cons first (.cons second rest))).before "(").behind ")"

theorem record (name : String) (h : List.Forall₂ Echo xs ys) :
    Echo (Display.record name xs) (Display.record name ys) :=
  ((intercalate ", " h).before (name ++ "(")).behind ")"

end Echo

open Action Program

namespace Twin

open Store

variable {s s' : Store} {v w : Value}

/-- What is said on both sides differs in names of ownerships at most. -/
abbrev Echoes (p p' : Action String) (s s' : Store) : Prop :=
  InStep Still p p' s s' fun x y _ _ => Echo x y

/-- A printer shows what is alike in the same way, but for names of ownerships. -/
structure Faithful (p : Printer) : Prop where
  like : ∀ {s s' : Store} {v w : Value}, s.Twin s' → Like (s.scope s') v w →
    Echoes (p.display v) (p.display w) s s'
  part : ∀ {s s' : Store} {n : Node} {q : Part}, s.Twin s' → s.HasPlace (.part n q) →
    Echoes (p.display (.object (.list (s.part n q)))) (p.display (.object (.list (s'.part n q)))) s s'
  atom : ∀ {v : Value}, v.isAtom → Steady (p.say v)

variable {p : Printer}

theorem Steady.echoes {action : Action String} (h : Steady action) (twin : s.Twin s') :
    Echoes action action s s' :=
  (h.inStep twin).mono fun _ _ _ _ heq => heq ▸ .same _

namespace Faithful

theorem showAll (hp : Faithful p) {vs ws : List Value} (h : s.Twin s')
    (hvs : LikeAll (s.scope s') vs ws) :
    InStep Still (p.showAll vs) (p.showAll ws) s s' fun xs ys _ _ => List.Forall₂ Echo xs ys := by
  induction vs generalizing s s' ws with
  | nil =>
      cases hvs
      exact inStep_pure h .nil
  | cons v vs ih =>
      cases hvs with
      | cons first rest =>
        refine inStep_bind (hp.like h first) fun x y t t' after echo => ?_
        refine inStep_bind (ih after.twin (LikeAll.mono rest (after.within h)))
          fun xs ys _ _ after echoes => ?_
        exact inStep_pure after.twin (.cons echo echoes)

theorem showEntries (hp : Faithful p) {es fs : List (Value × Value)} (h : s.Twin s')
    (keys : LikeAll (s.scope s') (es.map Prod.fst) (fs.map Prod.fst))
    (values : LikeAll (s.scope s') (es.map Prod.snd) (fs.map Prod.snd)) :
    InStep Still (p.showEntries es) (p.showEntries fs) s s' fun xs ys _ _ =>
      List.Forall₂ Echo xs ys := by
  induction es generalizing s s' fs with
  | nil =>
      obtain rfl : fs = [] := List.map_eq_nil_iff.mp (List.forall₂_nil_left_iff.mp keys)
      exact inStep_pure h .nil
  | cons e es ih =>
      cases fs with
      | nil => cases keys
      | cons f fs =>
          obtain ⟨key, keys⟩ := List.forall₂_cons.mp keys
          obtain ⟨value, values⟩ := List.forall₂_cons.mp values
          refine inStep_bind (hp.like h key) fun x x' t t' after echo => ?_
          have within := after.within h
          refine inStep_bind (hp.like after.twin (value.mono within)) fun y y' u u' next echo' => ?_
          have within := within.trans (next.within after.twin)
          have others := ih next.twin (LikeAll.mono keys within) (LikeAll.mono values within)
          refine inStep_bind others fun xs ys _ _ after echoes => ?_
          exact inStep_pure after.twin (.cons (.append (echo.behind ": ") echo') echoes)

/-! ### Objects with fields -/

theorem showMember (hp : Faithful p) (h : s.Twin s') (hv : Like (s.scope s') v w) {name : String}
    (hname : name ∉ ownerNames) : Echoes (p.showMember v name) (p.showMember w name) s s' :=
  inStep_bind (inStep_likeMember h hv hname) fun _ _ _ _ after like => hp.like after.twin like

theorem showPart (hp : Faithful p) (h : s.Twin s') {n : Node} {q : Part}
    (hq : s.HasPlace (.part n q)) :
    Echoes (p.showMember n.toValue q.name) (p.showMember n.toValue q.name) s s' := by
  have member (s : Store) (h : s.Tidy) :
      (n.toValue.member q.name).alone s = (.ok (.object (.list (s.part n q))), s) := by
    have stored := alone_storedMember rfl (h.bare n.identity) (field_part s hq.2)
    cases n <;> exact stored
  refine .of_leading (After.refl (R := Still) h) (alone_bind_ok (member s h.left) _)
    (alone_bind_ok (member s' h.right) _) (hp.part h hq)

theorem showFixed (hp : Faithful p) (h : s.Twin s') {o : Object} (ho : o.isFrozen) {name : String}
    (has : (o.fixedField? name).isSome) :
    Echoes (p.showMember (.object o) name) (p.showMember (.object o) name) s s' := by
  obtain ⟨v, hv⟩ := Option.isSome_iff_exists.mp has
  have member (s : Store) (h : s.Tidy) : ((Value.object o).member name).alone s = (.ok v, s) := by
    have field : (Value.object o).field? s name = some v := by
      rw [Object.fixedField?.eq_def] at hv
      split at hv <;> cases hv <;> rfl
    have stored := alone_storedMember (v := .object o) rfl (h.bare o.identity) field
    cases o <;> first | exact stored | cases ho
  exact .of_leading (After.refl (R := Still) h) (alone_bind_ok (member s h.left) _)
    (alone_bind_ok (member s' h.right) _) (hp.like h (like_of_fixedField hv _))

theorem showFields (h : s.Twin s') (hv : Like (s.scope s') v w) {names : List String}
    (show_ : ∀ {s s' : Store}, s.Twin s' → Like (s.scope s') v w → ∀ name ∈ names,
      Echoes (p.showMember v name) (p.showMember w name) s s') :
    InStep Still (p.showFields v names) (p.showFields w names) s s' fun xs ys _ _ =>
      List.Forall₂ Echo xs ys := by
  induction names generalizing s s' with
  | nil => exact inStep_pure h .nil
  | cons name rest ih =>
      refine inStep_bind (show_ h hv name List.mem_cons_self) fun x y t t' after echo => ?_
      have others := ih after.twin (hv.mono (after.within h)) fun h hv name hname =>
        show_ h hv name (List.mem_cons_of_mem _ hname)
      refine inStep_bind others fun xs ys _ _ after echoes => ?_
      exact inStep_pure after.twin (.cons (echo.before _) echoes)

theorem nodeText (hp : Faithful p) (h : s.Twin s') {n : Node} (hn : s.HasNode n) :
    Echoes (Display.objectText p (.ofNode n)) (Display.objectText p (.ofNode n)) s s' := by
  have like : Like (s.scope s') n.toValue n.toValue := .node hn
  have known {s s' : Store} (like : Like (s.scope s') n.toValue n.toValue) : s.HasNode n :=
    (like.of_node? (by cases n <;> rfl)).2.2
  have part {s s' : Store} (h : s.Twin s') (like : Like (s.scope s') n.toValue n.toValue) {q : Part}
      (hq : q ∈ n.parts) := hp.showPart h ⟨known like, hq⟩
  have fields {names : List String} (typeName : String)
      (show_ : ∀ {s s' : Store}, s.Twin s' → Like (s.scope s') n.toValue n.toValue →
        ∀ name ∈ names, Echoes (p.showMember n.toValue name) (p.showMember n.toValue name) s s') :
      Echoes (do return Display.record typeName (← p.showFields n.toValue names))
        (do return Display.record typeName (← p.showFields n.toValue names)) s s' :=
    inStep_bind (showFields h like show_) fun _ _ _ _ after echoes =>
      inStep_pure after.twin (.record typeName echoes)
  cases n with
  | rule r =>
      refine fields "Rule" fun h like name hname => ?_
      simp only [List.mem_cons, List.not_mem_nil, or_false] at hname
      rcases hname with rfl | rfl
      · exact hp.showMember h like (by decide)
      · exact part h like (bindings_mem_parts _)
  | pool q =>
      refine fields "Pool" fun h like name hname => ?_
      simp only [List.mem_cons, List.not_mem_nil, or_false] at hname
      rcases hname with rfl | rfl | rfl
      · exact hp.showMember h like (by decide)
      · exact part h like (bindings_mem_parts _)
      · exact hp.showMember h like (by decide)
  | build b =>
      refine fields "Build" fun h like name hname => ?_
      simp only [List.cons_append, List.mem_cons, List.mem_append, List.mem_map, List.not_mem_nil,
        or_false] at hname
      rcases hname with rfl | ⟨slot, -, rfl⟩ | rfl
      · exact hp.showMember h like (by decide)
      · exact part h like (paths_mem_parts b slot)
      · exact part h like (bindings_mem_parts _)

theorem listText (hp : Faithful p) (h : s.Twin s') {n : Node} {q : Part}
    (hq : s.HasPlace (.part n q)) :
    Echoes (Display.listText p (s.part n q)) (Display.listText p (s'.part n q)) s s' := by
  have hq' := (h.hasPlace _).mpr hq
  have snapshot (s : Store) (h : s.Tidy) (hq : s.HasPlace (.part n q)) :
      (s.part n q).snapshot.alone s = (.ok (s.held (.part n q)), s) :=
    ListId.alone_snapshot (h.open_spot hq)
  have likes : LikeAll (s.scope s') (s.held (.part n q)) (s.held (.part n q)) :=
    List.forall₂_same.mpr fun v hv => Part.like_of_admits (h.left.proper n q hq v hv)
  refine .of_leading (After.refl (R := Still) h) (alone_bind_ok (snapshot s h.left hq) _)
    (alone_bind_ok (snapshot s' h.right hq') _) ?_
  rw [h.held_part hq]
  refine inStep_bind (hp.showAll h likes) fun xs ys t t' after echoes => ?_
  have named (t : Store) (h : t.Tidy) (l : ListId) {α : Type} (k : String → Action α) :
      ((Value.object (.list l)).member "ownership" >>= fun own =>
        p.sayMember own "value" >>= k).alone t = (k (t.list l).ownership.name).alone t := by
    have said (o : Ownership) : (p.sayMember (.ownership o) "value").alone t = (.ok o.name, t) :=
      alone_bind_ok (p := (Value.ownership o).member "value")
        (alone_storedMember rfl (h.bare (.ownership o)) rfl) _
    refine (alone_bind_ok (alone_storedMember rfl (h.bare (.list l)) rfl) _).trans ?_
    exact alone_bind_ok (said _) _
  refine inStep_of_alone (named t after.twin.left _ _) (named t' after.twin.right _ _)
    (.refl after.twin) ?_
  refine .append (.append (.append (.append (.same _) ?_) (.same _)) (.ownership _ _)) (.same _)
  exact .list echoes

/-! ### All values -/

theorem handleText (hp : Faithful p) (h : s.Twin s') {k k' : Handle}
    (hk : Like (s.scope s') k.toValue k'.toValue) :
    Echoes (Display.handleText p k) (Display.handleText p k') s s' := by
  rw [Display.handleText, Display.handleText, hk.of_handle.2.1]
  refine inStep_bind (inStep_place h hk) fun _ _ t t' after found => ?_
  obtain ⟨hx, hy⟩ := found
  subst hx hy
  have hk := hk.mono (after.within h)
  refine inStep_bind ((hp.atom (v := .int k.index) rfl).inStep after.twin)
    fun _ index u u' next heq => ?_
  subst heq
  refine inStep_bind (inStep_statement next.twin (hk.mono (next.within after.twin)))
    fun v w t t' after found => ?_
  obtain ⟨like, _⟩ := found
  refine inStep_bind (hp.like after.twin like) fun x y _ _ after echo => ?_
  exact inStep_pure after.twin (.record _ (.cons (.same _) (.cons (echo.before _) .nil)))

theorem text (hp : Faithful p) (h : s.Twin s') (hv : Like (s.scope s') v w) :
    Echoes (Display.text p v) (Display.text p w) s s' := by
  have plain (text : String) : Echoes (return text) (return text) s s' :=
    (steady_pure text).echoes h
  cases hv with
  | @atom v hv =>
      cases v with
      | bytes form => cases form <;> exact plain _
      | _ => first | exact plain _ | cases hv
  | mapping keys values =>
      refine inStep_bind (hp.showEntries h keys values) fun _ _ _ _ after echoes => ?_
      exact inStep_pure after.twin (((Echo.intercalate ", " echoes).before _).behind _)
  | list hvs =>
      exact inStep_bind (hp.showAll h hvs) fun _ _ _ _ after echoes =>
        inStep_pure after.twin (.list echoes)
  | tuple hvs =>
      exact inStep_bind (hp.showAll h hvs) fun _ _ _ _ after echoes =>
        inStep_pure after.twin (.tuple echoes)
  | source | document | arena => exact plain _
  | @node n hn =>
      have shown := hp.nodeText h hn
      cases n <;> exact shown
  | @fixed o ho =>
      have fields (typeName : String) (names : List String)
          (has : ∀ x ∈ names, (o.fixedField? x).isSome) :
          Echoes (do return Display.record typeName (← p.showFields (.object o) names))
            (do return Display.record typeName (← p.showFields (.object o) names)) s s' := by
        have shown : InStep Still (p.showFields (.object o) names) (p.showFields (.object o) names)
            s s' fun xs ys _ _ => List.Forall₂ Echo xs ys :=
          showFields h (.fixed ho) fun h hv name hname => hp.showFixed h ho (has name hname)
        exact inStep_bind shown fun _ _ _ _ after echoes =>
          inStep_pure after.twin (.record typeName echoes)
      cases o with
      | comment => exact fields "Comment" ["text"] (by simp [Object.fixedField?])
      | binding => exact fields "Variable" ["name", "value"] (by simp [Object.fixedField?])
      | defaults => exact fields "Default" ["outputs"] (by simp [Object.fixedField?])
      | subninja => exact fields "Subninja" ["path"] (by simp [Object.fixedField?])
      | inclusion => exact fields "Include" ["path"] (by simp [Object.fixedField?])
      | _ => cases ho
  | view view =>
      have level : s'.logging.effectiveLevel view.name = s.logging.effectiveLevel view.name := by
        rw [Logging.effectiveLevel, Logging.effectiveLevel, Logging.chain_congr h.loggers]
      have same : Display.viewText s'.logging view = Display.viewText s.logging view := by
        delta Display.viewText
        rw [level]
      refine inStep_of_alone rfl rfl (.refl h) ?_
      change Echo (Display.viewText s.logging view) (Display.viewText s'.logging view)
      rw [same]
      exact .same _
  | handle ha => exact hp.handleText h (.handle ha)

end Faithful

/-! ### The printer of the library -/

/-- Faithful printers are made of faithful ones, down to one that shows nothing. -/
theorem faithful_deep (depth : Nat) : Faithful (.deep depth) := by
  induction depth with
  | zero =>
      exact ⟨fun h _ => inStep_fail h _, fun h _ => inStep_fail h _, fun hv => steady_sayAtom 0 hv⟩
  | succ depth ih =>
      exact ⟨fun h hv => ih.text h hv, fun h hq => ih.listText h hq,
        fun hv => steady_sayAtom (depth + 1) hv⟩

theorem inStep_display (h : s.Twin s') (hv : Like (s.scope s') v w) :
    Echoes v.display w.display s s' := (faithful_deep nestingLimit).like h hv

theorem inStep_toText (h : s.Twin s') (hv : Like (s.scope s') v w) :
    Echoes v.toText w.toText s s' := by
  have shown := (faithful_deep 999).text h hv
  cases hv with
  | @atom v hv => exact (steady_sayAtom nestingLimit hv).echoes h
  | document hd => exact (inStep_render h hd).mono fun _ _ _ _ heq => heq ▸ .same _
  | @node n hn => exact (inStep_nodeRender h hn).mono fun _ _ _ _ heq => heq ▸ .same _
  | @fixed o ho =>
      cases o with
      | binding n b => exact (steady_pure b.render).echoes h
      | comment | defaults | subninja | inclusion => exact shown
      | _ => cases ho
  | _ => exact shown

end Twin

end NinjaFile
