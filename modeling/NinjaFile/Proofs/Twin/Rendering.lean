import NinjaFile.Proofs.Document.Rendered
import NinjaFile.Proofs.Twin.Attributes

/-!
# What twins say

A node says what its parts hold, by whatever lists, so documents of twins are rendered to
the same text.  What cannot be rendered is refused by both for the same reason.
-/

namespace NinjaFile

open Action Program

namespace Store

/-- What a node says, as it lies in its parts. -/
def saying (s : Store) (n : Node) : Statement :=
  let block := (s.held (.part n .bindings)).filterMap Value.line?
  match n with
  | .rule _ => .rule (s.fields n).1 block
  | .build _ =>
      .build ⟨(s.fields n).1, .ofFn fun slot => Value.texts (s.held (.part n (.paths slot))), block⟩
  | .pool _ => if (s.fields n).2 then .pool "" [] true else .pool (s.fields n).1 block false

variable {s s' : Store} {n : Node}

namespace Tidy

theorem lines_held (h : s.Tidy) (hn : s.HasNode n) :
    s.Lines (s.part n .bindings) ((s.held (.part n .bindings)).filterMap Value.line?) := by
  have proper := h.proper n .bindings ⟨hn, bindings_mem_parts n⟩
  rw [Lines]
  change (s.held (.part n .bindings)).map _ = _
  generalize s.held (.part n .bindings) = vs at proper ⊢
  induction vs with
  | nil => rfl
  | cons v rest ih =>
      have rest := ih fun w hw => proper w (List.mem_cons_of_mem v hw)
      have first := proper v List.mem_cons_self
      cases v with
      | object o =>
          cases o with
          | binding serial b => simpa [Value.line?] using rest
          | _ => cases first
      | _ => cases first

theorem paths_held (h : s.Tidy) {slot : Slot} (hq : s.HasPlace (.part n (.paths slot))) :
    s.Paths (s.part n (.paths slot)) (Value.texts (s.held (.part n (.paths slot)))) := by
  have proper := h.proper n _ hq
  rw [Paths]
  change s.held (.part n (.paths slot)) = _
  generalize s.held (.part n (.paths slot)) = vs at proper ⊢
  induction vs with
  | nil => rfl
  | cons v rest ih =>
      have rest := ih fun w hw => proper w (List.mem_cons_of_mem v hw)
      have first := proper v List.mem_cons_self
      cases v with
      | text text => exact congrArg (Value.text text :: ·) rest
      | object o => cases o <;> cases first
      | _ => cases first

theorem nodeReads_saying (h : s.Tidy) (hn : s.HasNode n) (visible : (s.saying n).isHidden = false) :
    s.NodeReads n (s.saying n) := by
  cases n with
  | rule r => exact ⟨rfl, h.lines_held hn⟩
  | build b =>
      refine ⟨rfl, fun slot => ?_, h.lines_held hn⟩
      rw [Slots.get_ofFn]
      exact h.paths_held ⟨hn, paths_mem_parts b slot⟩
  | pool p =>
      rw [saying] at visible ⊢
      split at visible
      · cases visible
      · next builtIn =>
          rw [if_neg builtIn]
          exact ⟨Prod.ext rfl (by simpa using builtIn), h.lines_held hn⟩

theorem legible_saying (h : s.Tidy) (hn : s.HasNode n) (visible : (s.saying n).isHidden = false) :
    s.Legible n.toValue (s.saying n) where
  reads := (reads_node s n _).mpr (h.nodeReads_saying hn visible)
  bare i _ := h.bare i
  kind := h.bare _
  lists m hm q hq := by
    obtain rfl : n = m := by simpa [Value.node?, Node.toValue] using hm
    exact h.open_spot (x := .part n q) ⟨hn, hq⟩
  lines _ _ _ _ i _ := h.bare i

theorem legible_fixed (h : s.Tidy) {o : Object} {st : Statement} (ho : o.isFrozen)
    (reads : s.Reads (.object o) st) : s.Legible (.object o) st where
  reads := reads
  bare i _ := h.bare i
  kind := h.bare _
  lists n hn := by cases o <;> first | (cases ho; done) | cases hn
  lines n hn := by cases o <;> first | (cases ho; done) | cases hn

end Tidy

theorem Twin.saying_eq (h : s.Twin s') (hn : s.HasNode n) : s'.saying n = s.saying n := by
  have fields := h.fields n hn
  have bindings := h.held_part (n := n) ⟨hn, bindings_mem_parts n⟩
  cases n with
  | rule r => rw [saying, saying, fields, bindings]
  | build b =>
      have paths (slot : Slot) := h.held_part (n := .build b) ⟨hn, paths_mem_parts b slot⟩
      simp only [saying, fields, bindings, paths]
  | pool p => rw [saying, saying, fields, bindings]

end Store

namespace Twin

open Store

variable {s s' : Store} {v w : Value}

/-! ## Statements -/

private theorem alone_kindOf_of_none (h : s.Tidy) (hv : v.field? s "kind" = none) :
    v.kindOf.alone s = (.error (.noAttribute v.typeName "kind"), s) := by
  have stored : (v.storedMember "kind").alone s =
      (.error (.noAttribute v.typeName "kind"), s) := by
    rw [Value.storedMember, alone_read_bind, h.stored?, hv]
    rfl
  cases v with
  | object o =>
      cases o with
      | handle k =>
          have own : k.member "kind" = (Value.object (.handle k)).storedMember "kind" := by
            rw [Handle.member, if_neg]
            cases k.expected <;> decide
          exact (congrArg (alone · s) own).trans stored
      | _ => exact stored
  | _ => exact stored

private theorem alone_statement_of_none (p : Printer) (h : s.Tidy)
    (hv : v.field? s "kind" = none) :
    (p.statement v).alone s = (.error (.noAttribute v.typeName "kind"), s) := by
  rw [Printer.statement, alone_bind, alone_kindOf_of_none h hv]

theorem steady_sayAtom (depth : Nat) (hv : v.isAtom) : Steady ((Printer.deep depth).say v) := by
  cases depth with
  | zero => cases v <;> first | exact steady_pure _ | exact steady_fail _
  | succ depth =>
      cases v with
      | bytes form content => cases form <;> exact steady_pure _
      | _ => first | exact steady_pure _ | cases hv

/-- A lookalike has nothing of a statement but the kind. -/
private theorem steady_lookalike (depth : Nat) (n : Serial) {kind : Value} (hk : kind.isAtom) :
    Steady ((Printer.deep depth).statement (.lookalike n kind)) := by
  have known (s : Store) (h : s.Tidy) : (Value.lookalike n kind).kindOf.alone s = (.ok kind, s) := by
    rw [Value.kindOf, Value.member, Value.storedMember, alone_read_bind, h.stored?]
    · rfl
    · rintro _ ⟨⟩
  have missing (name : String) (hname : name ≠ "kind") (s : Store) (h : s.Tidy) :
      ((Value.lookalike n kind).member name).alone s =
        (.error (.noAttribute "SimpleNamespace" name), s) := by
    have none : (Value.lookalike n kind).field? s name = none := by
      rw [Value.field?.eq_def]
      split <;> first | contradiction | rfl
    rw [Value.member, Value.storedMember, alone_read_bind, h.stored?, none]
    · rfl
    · rintro _ ⟨⟩
  have fails {α β : Type} {p : Action α} {fault : Fault}
      (hp : ∀ s : Store, s.Tidy → p.alone s = (.error fault, s)) (k : α → Action β) (s : Store)
      (h : s.Tidy) : (p >>= k).alone s = (.error fault, s) := by
    rw [alone_bind, hp s h]
  have goes {p : Value → Action Statement} (steady : Steady (p kind)) :
      Steady ((Value.lookalike n kind).kindOf >>= p) := by
    obtain ⟨r, steady⟩ := steady
    exact ⟨r, fun s h => (alone_bind_ok (known s h) _).trans (steady s h)⟩
  refine goes ?_
  cases kind with
  | kind k =>
      -- Every kind asks for an attribute first.
      cases k with
      | comment => exact ⟨_, fails (fails (missing "text" (by decide)) _) _⟩
      | rule => exact ⟨_, fails (fails (missing "name" (by decide)) _) _⟩
      | build => exact ⟨_, fails (missing "outputs" (by decide)) _⟩
      | binding =>
          have blocked (s : Store) (h : s.Tidy) :
              (Printer.deep depth |>.blockLine (.lookalike n (.kind .binding))).alone s =
                (.error (.noAttribute "SimpleNamespace" "render"), s) := by
            rw [Printer.blockLine.eq_def, alone_read_bind, h.stored?]
            rfl
          exact ⟨_, fails blocked _⟩
      | defaults => exact ⟨_, fails (missing "outputs" (by decide)) _⟩
      | subninja => exact ⟨_, fails (fails (missing "path" (by decide)) _) _⟩
      | inclusion => exact ⟨_, fails (fails (missing "path" (by decide)) _) _⟩
      | pool => exact ⟨_, fails (missing "built_in" (by decide)) _⟩
  | _ => exact (steady_sayAtom depth hk).bind fun _ => steady_fail _

private theorem alone_nodeStatement (p : Printer) (h : s.Tidy) {n : Node} (hn : s.HasNode n) :
    (p.statement n.toValue).alone s = (.ok (s.saying n), s) := by
  cases hidden : (s.saying n).isHidden with
  | false => exact p.alone_statement (h.legible_saying hn hidden) hidden
  | true =>
      cases n with
      | pool i =>
          have builtIn : (s.fields (.pool i)).2 = true := by
            rw [saying] at hidden
            split at hidden
            · assumption
            · cases hidden
          have member {name : String} {v : Value}
              (hv : (Value.object (.pool i)).field? s name = some v) :
              ((Value.object (.pool i)).member name).alone s = (.ok v, s) :=
            alone_storedMember rfl (h.bare _) hv
          have kind : (Value.object (.pool i)).kindOf.alone s = (.ok (.kind .pool), s) :=
            member rfl
          have told : ((Value.object (.pool i)).member "built_in").alone s =
              (.ok (.bool true), s) := member (congrArg (some <| Value.bool ·) builtIn)
          rw [saying, if_pos builtIn]
          exact (alone_bind_ok kind _).trans (alone_bind_ok told _)
      | _ => cases hidden

theorem inStep_printed (h : s.Twin s') (hv : Like (s.scope s') v w) (depth : Nat) :
    InStep Still ((Printer.deep depth).statement v) ((Printer.deep depth).statement w) s s'
      fun x y _ _ => y = x := by
  by_cases kindless : v.field? s "kind" = none
  · have kindless' : w.field? s' "kind" = none := by
      have shown := field?_shown h hv "kind"
      rw [kindless] at shown
      generalize w.field? s' "kind" = found at shown
      cases shown
      rfl
    rw [InStep, alone_statement_of_none _ h.left kindless,
      alone_statement_of_none _ h.right kindless', hv.typeName_eq]
    exact ends_of_agree h (.error _)
  · cases hv with
    | node hn =>
        rename_i n
        exact inStep_of_alone (alone_nodeStatement _ h.left hn)
          (alone_nodeStatement _ h.right ((h.nodes n).mpr hn)) (.refl h) (h.saying_eq hn)
    | @fixed o ho =>
        obtain ⟨st, visible, reads⟩ : ∃ st : Statement, st.isHidden = false ∧
            ∀ s : Store, s.Reads (.object o) st := by
          cases o <;> first | exact ⟨_, rfl, fun _ => rfl⟩ | cases ho
        exact inStep_of_alone
          (Printer.alone_statement _ (h.left.legible_fixed ho (reads s)) visible)
          (Printer.alone_statement _ (h.right.legible_fixed ho (reads s')) visible) (.refl h) rfl
    | @atom v hv =>
        cases v with
        | lookalike n kind =>
            have kind : kind.isAtom := hv
            exact (steady_lookalike depth n kind).inStep h
        | _ => first | exact absurd rfl kindless | cases hv
    | _ => exact absurd rfl kindless

theorem inStep_printedAll {vs ws : List Value} (h : s.Twin s') (hv : LikeAll (s.scope s') vs ws)
    (depth : Nat) :
    InStep Still ((Printer.deep depth).statements vs) ((Printer.deep depth).statements ws) s s'
      fun xs ys _ _ => ys = xs := by
  induction vs generalizing s s' ws with
  | nil =>
      cases hv
      exact inStep_pure h rfl
  | cons v vs ih =>
      cases hv with
      | cons first rest =>
        refine inStep_bind (inStep_kindOf h first) fun kind kind' t t' after like => ?_
        have within := after.within h
        refine inStep_bind (inStep_member after.twin like "ordinal") fun _ _ u u' next _ => ?_
        have within := within.trans (next.within after.twin)
        refine inStep_bind (inStep_printed next.twin (first.mono within) depth)
          fun st _ t t' after heq => ?_
        subst heq
        have within := within.trans (after.within next.twin)
        exact inStep_bind (ih after.twin (LikeAll.mono rest within)) fun xs ys _ _ after heq =>
          inStep_pure after.twin (by rw [heq])

/-! ## Texts -/

theorem steady_sayMark (p : Printer) (mark : String) (statements : List Statement) :
    Steady (p.sayMark (.text mark) statements) := by
  rw [Printer.sayMark]
  split <;> exact steady_pure _

theorem inStep_valueSnapshot (h : s.Twin s') (hv : Like (s.scope s') v w) :
    InStep Still v.snapshot w.snapshot s s' fun vs ws t t' => LikeAll (t.scope t') vs ws := by
  have refused : InStep Still (.fail (.noAttribute v.typeName "snapshot") : Action (List Value))
      (.fail (.noAttribute w.typeName "snapshot")) s s' fun vs ws t t' =>
        LikeAll (t.scope t') vs ws := by
    rw [hv.typeName_eq]
    exact inStep_fail h _
  cases hv with
  | arena ha => exact inStep_snapshot h ha
  | @atom v hv => cases v <;> first | exact refused | cases hv
  | @node n _ => cases n <;> exact refused
  | @fixed o ho => cases o <;> first | exact refused | cases ho
  | _ => exact refused

theorem inStep_documentText (h : s.Twin s') {d : DocumentId} (hd : s.HasDocument d) (depth : Nat) :
    InStep Still ((Printer.deep depth).documentText d) ((Printer.deep depth).documentText d) s s'
      fun x y _ _ => y = x := by
  refine inStep_bind (inStep_likeMember h (.document hd) (by decide)) fun v w t t' after like => ?_
  refine inStep_bind (inStep_valueSnapshot after.twin like) fun vs ws u u' next likes => ?_
  refine inStep_bind (inStep_printedAll next.twin likes depth) fun xs ys t t' after heq => ?_
  subst heq
  exact inStep_of_alone (Printer.alone_fileText _ _ _) (Printer.alone_fileText _ _ _)
    (.refl after.twin) rfl

/-- A document is rendered to the same text, or not at all for the same reason. -/
theorem inStep_render (h : s.Twin s') {d : DocumentId} (hd : s.HasDocument d) :
    InStep Still d.render d.render s s' fun x y _ _ => y = x :=
  inStep_documentText h hd 999

theorem inStep_nodeRender (h : s.Twin s') {n : Node} (hn : s.HasNode n) :
    InStep Still n.render n.render s s' fun x y _ _ => y = x := by
  let p := Printer.deep 999
  have text {action : Action Statement}
      (left : action.alone s = (p.statement n.toValue).alone s)
      (right : action.alone s' = (p.statement n.toValue).alone s') :
      InStep Still (p.nodeText action) (p.nodeText action) s s' fun x y _ _ => y = x := by
    have hn' := (h.nodes n).mpr hn
    have saying : InStep Still action action s s' fun x y _ _ => y = x :=
      inStep_of_alone (left.trans (alone_nodeStatement p h.left hn))
        (right.trans (alone_nodeStatement p h.right hn')) (.refl h) (h.saying_eq hn)
    refine inStep_bind saying fun _ st t t' after heq => ?_
    subst heq
    exact (((steady_sayMark p _ [st]).bind fun _ => steady_pure _).bind
      fun _ => steady_pure _).inStep after.twin
  have kind (s : Store) (h : s.Tidy) {k : Kind} (hk : n.toValue.field? s "kind" = some (.kind k)) :
      (p.statementOf k n.toValue).alone s = (p.statement n.toValue).alone s := by
    have known : n.toValue.kindOf.alone s = (.ok (.kind k), s) := by
      cases n <;> exact alone_storedMember rfl (h.bare _) hk
    rw [Printer.statement, alone_bind_ok known]
  cases n with
  | rule r => exact text (kind s h.left rfl) (kind s' h.right rfl)
  | build b => exact text (kind s h.left rfl) (kind s' h.right rfl)
  | pool q => exact text (kind s h.left rfl) (kind s' h.right rfl)

end Twin

end NinjaFile
