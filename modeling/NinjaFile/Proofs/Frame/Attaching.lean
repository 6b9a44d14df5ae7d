import NinjaFile.Proofs.Failure.Attaching
import NinjaFile.Proofs.Frame.Homes
import NinjaFile.Proofs.Store.Alike

/-!
# What an attachment leaves alone

A method that attaches something through a handle appends to one list of the statement that
the handle leads to, or does nothing.
-/

namespace NinjaFile

open Program Store

/-! ## What a handle leads to -/

theorem Value.pick_of_listItem {items : List Value} {i : Int} {v : Value}
    (h : Value.listItem items (.int i) = .ok v) : GuardedList.pick items i = some v := by
  simp only [Value.listItem, Value.itemIn, Value.int?, Value.whole?, Option.map_some, Whole.value] at h
  cases hplace : Value.place? items.length i with
  | none =>
      simp only [hplace, Value.checkIndex] at h
      split at h <;> cases h
  | some place =>
      rw [hplace] at h
      obtain rfl := Except.ok.inj h
      unfold Value.place? at hplace
      unfold GuardedList.pick
      split at hplace
      · next inside =>
          cases hplace
          rw [if_pos inside.1, List.getD_eq_getElem?_getD, List.getElem?_eq_getElem (by omega)]
          rfl
      · split at hplace
        · cases hplace
          rw [if_neg (by omega), if_pos (by omega), List.getD_eq_getElem?_getD,
            List.getElem?_eq_getElem (by omega)]
          rfl
        · cases hplace

namespace Handle

variable {h : Handle} {s : Store} {n : Node}

/-- What stands at the index of a handle. -/
def item? (h : Handle) (s : Store) : Option Value :=
  GuardedList.pick (s.list h.arena.statements).items h.index

theorem seen_statement (unassigned : s.assigned = []) (h : Handle) :
    h.statement.seen s = (Value.listItem (s.list h.arena.statements).items (.int h.index) >>= fun v =>
      if h.expected.admits v then .ok v
      else .error (.wrongKind h.expected.statementName v.typeName (.number h.index))) := by
  have stored (name : String) : (Value.object (.handle h)).stored? s name =
      (Value.object (.handle h)).field? s name := Value.stored?_of_unassigned unassigned _ name
  have arena : h.statements.seen s = .ok (.object (.arena h.arena)) := by
    change Except.ok (((Value.object (.handle h)).stored? s "statements").getD _) = _
    rw [stored]
    rfl
  have place : h.place.seen s = .ok (.int h.index) := by
    change Except.ok (((Value.object (.handle h)).stored? s "index").getD _) = _
    rw [stored]
    rfl
  have item : ((Value.object (.arena h.arena)).item (.int h.index) "").seen s =
      Value.listItem (s.list h.arena.statements).items (.int h.index) := by
    refine (seen_guarded _ _ _ _).trans ?_
    exact seen_ofExcept _ s
  rw [statement, seen_bind, arena]
  change (h.place >>= _).seen s = _
  rw [seen_bind, place]
  change ((Value.object (.arena h.arena)).item (.int h.index) "" >>= _).seen s = _
  rw [seen_bind, item]
  congr 1
  funext v
  split <;> rfl

theorem seen_resolve (h : Handle) (s : Store) :
    (Receiver.handle h).resolve.seen s = h.statement.seen s >>= fun v =>
      v.node?.elim (.error .notImplemented) .ok := by
  change (h.statement >>= _).seen s = _
  rw [seen_bind]
  congr 1
  funext v
  cases v.node? <;> rfl

theorem item_of_resolve (unassigned : s.assigned = [])
    (hn : (Receiver.handle h).resolve.seen s = .ok n) :
    h.item? s = some n.toValue ∧ h.expected.admits n.toValue := by
  rw [seen_resolve, seen_statement unassigned] at hn
  cases hv : Value.listItem (s.list h.arena.statements).items (.int h.index) with
  | error fault =>
      rw [hv] at hn
      cases hn
  | ok v =>
      rw [hv] at hn
      change ((if h.expected.admits v then Except.ok v else _) >>= _) = _ at hn
      split at hn
      · next admits =>
          change v.node?.elim _ _ = _ at hn
          cases found : v.node? with
          | none =>
              rw [found] at hn
              cases hn
          | some m =>
              rw [found] at hn
              cases hn
              obtain rfl := Value.eq_toValue found
              exact ⟨Value.pick_of_listItem hv, admits⟩
      · cases hn

theorem resolve_congr {t : Store} (unassigned : s.assigned = []) (assigned : t.assigned = s.assigned)
    (items : (t.list h.arena.statements).items = (s.list h.arena.statements).items) :
    (Receiver.handle h).resolve.seen t = (Receiver.handle h).resolve.seen s := by
  rw [seen_resolve, seen_resolve, seen_statement unassigned,
    seen_statement (assigned.trans unassigned), items]

end Handle

theorem GuardedList.mem_of_pick {α : Type} {items : List α} {i : Int} {a : α}
    (h : GuardedList.pick items i = some a) : a ∈ items := by
  unfold GuardedList.pick at h
  split at h
  · exact List.mem_of_getElem? h
  · split at h
    · exact List.mem_of_getElem? h
    · cases h

/-! ## Methods that attach something -/

namespace Script

inductive Attacher where
  | bind (b : Binder)
  | paths (slot : Slot) (v : Value)

namespace Attacher

def program (r : Receiver) : Attacher → Action Unit
  | .bind b => b.program r
  | .paths slot v => r.addPaths slot v

/-- The list that is attached to. -/
def part : Attacher → Part
  | .bind _ => .bindings
  | .paths slot _ => .paths slot

def methodName : Attacher → String
  | .bind b => b.methodName
  | .paths .inputs _ => "with_"
  | .paths .implicitInputs _ => "with_implicit"
  | .paths .orderOnlyInputs _ => "with_order_only"
  | .paths .validations _ => "with_validations"
  | .paths .implicitOutputs _ => "output_implicit"
  | .paths .outputs _ => ""

def arguments : Attacher → List Value
  | .bind b => b.arguments
  | .paths _ v => [v]

/-- Paths are for builds; outputs are given when a build is made. -/
def fits : Attacher → Mixin → Bool
  | .bind b, m => b.fits m
  | .paths slot _, m => m = .buildVariables && slot ≠ .outputs

theorem exists_method (a : Attacher) {o : Object} {r : Receiver} {m : Mixin}
    (receiver : o.receiver? = some r) (mixin : mixin? o = some m) (fits : a.fits m) :
    ∃ method ∈ attachmentMethods o, method.name = a.methodName ∧
      method.run a.arguments = chained o (a.program r) := by
  cases a with
  | bind b => exact b.exists_method receiver mixin fits
  | paths slot v =>
      obtain ⟨rfl, hslot⟩ : m = .buildVariables ∧ slot ≠ .outputs := by simpa [Attacher.fits] using fits
      have method (n : Nat) {method : Callable}
          (h : (buildVariablesMethods o r)[n]? = some method) : method ∈ attachmentMethods o := by
        have mem := List.mem_of_getElem? h
        simp_all [attachmentMethods]
      cases slot with
      | outputs => exact absurd rfl hslot
      | inputs => exact ⟨_, method 0 rfl, rfl, rfl⟩
      | implicitInputs => exact ⟨_, method 1 rfl, rfl, rfl⟩
      | orderOnlyInputs => exact ⟨_, method 2 rfl, rfl, rfl⟩
      | validations => exact ⟨_, method 3 rfl, rfl, rfl⟩
      | implicitOutputs => exact ⟨_, method 4 rfl, rfl, rfl⟩

theorem exists_attacher {o : Object} {r : Receiver} {m : Mixin} (receiver : o.receiver? = some r)
    (mixin : mixin? o = some m) {method : Callable} (mem : method ∈ attachmentMethods o)
    (args : List Value) :
    ∃ a : Attacher, a.fits m ∧ a.methodName = method.name ∧
      method.run args = chained o (a.program r) := by
  have forAny (mem : method ∈ variablesMethods o r) : ∃ a : Attacher, a.fits m ∧
      a.methodName = method.name ∧ method.run args = chained o (a.program r) := by
    obtain rfl := List.mem_singleton.mp mem
    exact ⟨.bind (.binding _ _), by cases m <;> rfl, rfl, rfl⟩
  have forRule (hm : m ≠ .variables) (mem : method ∈ ruleVariablesMethods o r) :
      ∃ a : Attacher, a.fits m ∧ a.methodName = method.name ∧
        method.run args = chained o (a.program r) := by
    have fits : ∀ b : Binder, b.fits .ruleVariables → b.fits m := by
      intro b hb
      cases m <;> cases b <;> simp_all [Binder.fits]
    simp only [ruleVariablesMethods, List.mem_cons, List.not_mem_nil, or_false] at mem
    rcases mem with rfl | rfl | rfl | rfl | rfl | rfl | rfl | rfl | rfl | rfl | rfl
    · exact ⟨.bind (.depfile _), fits _ rfl, rfl, rfl⟩
    · exact ⟨.bind .depsGcc, fits _ rfl, rfl, rfl⟩
    · exact ⟨.bind .depsMsvc, fits _ rfl, rfl, rfl⟩
    · exact ⟨.bind (.depsMsvcPrefix _), fits _ rfl, rfl, rfl⟩
    · exact ⟨.bind (.description _), fits _ rfl, rfl, rfl⟩
    · exact ⟨.bind .generator, fits _ rfl, rfl, rfl⟩
    · exact ⟨.bind (.inNewline _), fits _ rfl, rfl, rfl⟩
    · exact ⟨.bind .restat, fits _ rfl, rfl, rfl⟩
    · exact ⟨.bind (.rspfile _ _), fits _ rfl, rfl, rfl⟩
    · exact ⟨.bind .poolConsole, fits _ rfl, rfl, rfl⟩
    · exact ⟨.bind (.pool _), fits _ rfl, rfl, rfl⟩
  cases m with
  | «variables» => exact forAny (by simpa [attachmentMethods, receiver, mixin] using mem)
  | ruleVariables =>
      have cases : method ∈ ruleVariablesMethods o r ∨ method ∈ variablesMethods o r := by
        simpa [attachmentMethods, receiver, mixin] using mem
      exact cases.elim (forRule (by decide)) forAny
  | buildVariables =>
      have cases : method ∈ buildVariablesMethods o r ∨ method ∈ ruleVariablesMethods o r ∨
          method ∈ variablesMethods o r := by
        simpa [attachmentMethods, receiver, mixin] using mem
      refine cases.elim (fun mem => ?_) fun others => others.elim (forRule (by decide)) forAny
      simp only [buildVariablesMethods, List.mem_cons, List.not_mem_nil, or_false] at mem
      rcases mem with rfl | rfl | rfl | rfl | rfl | rfl
      · exact ⟨.paths .inputs _, rfl, rfl, rfl⟩
      · exact ⟨.paths .implicitInputs _, rfl, rfl, rfl⟩
      · exact ⟨.paths .orderOnlyInputs _, rfl, rfl, rfl⟩
      · exact ⟨.paths .validations _, rfl, rfl, rfl⟩
      · exact ⟨.paths .implicitOutputs _, rfl, rfl, rfl⟩
      · exact ⟨.bind (.dyndep _), rfl, rfl, rfl⟩

end Attacher

end Script

/-! ## How they end -/

namespace Store

variable {s s' : Store} {d : DocumentId} {h : Handle} {n : Node}

/-- The handle leads into the document. -/
structure Leads (s : Store) (h : Handle) (d : DocumentId) : Prop where
  has : s.HasDocument d
  arena : h.arena = (s.document d).arena

/-- Some items stand at the end of one list of a statement. -/
def Gains (s : Store) (v : Option Value) (q : Part) (items : List Value) (s' : Store) : Prop :=
  ∃ n, v = some n.toValue ∧ s.HasPlace (.part n q) ∧ (∀ w ∈ items, q.admits w) ∧
    (s.modifyList (s.part n q) (·.append items)).Alike s'

/-- Something has been attached, or nothing has happened. -/
def Attached (s : Store) (v : Option Value) (q : Part) (s' : Store) : Prop :=
  s.Alike s' ∨ ∃ items, s.Gains v q items s'

theorem Housed.hasNode_of_item (housed : s.Housed) (leads : s.Leads h d)
    (hn : h.item? s = some n.toValue) : s.HasNode n := by
  have mem : n.toValue ∈ s.held (.statements d) := by
    rw [Store.held, Store.spot, ← leads.arena]
    exact GuardedList.mem_of_pick hn
  obtain ⟨o, heq, -, has⟩ := housed.suits (.statements d) leads.has _ mem
  cases heq
  exact has n (Object.node?_ofNode n)

theorem Housed.resolve_append (housed : s.Housed) (leads : s.Leads h d) {q : Part}
    (hq : s.HasPlace (.part n q)) (items : List Value) :
    (Receiver.handle h).resolve.seen (s.modifyList (s.part n q) (·.append items)) =
      (Receiver.handle h).resolve.seen s := by
  refine Handle.resolve_congr housed.unassigned rfl ?_
  rw [items_append_eq, if_neg]
  rintro ⟨heq, -⟩
  rw [leads.arena] at heq
  cases housed.apart (.part n q) (.statements d) hq leads.has heq

theorem Housed.holds (housed : s.Housed) (leads : s.Leads h d)
    (hn : (Receiver.handle h).resolve.seen s = .ok n) :
    (Receiver.handle h).Holds s n (s.part n .bindings) := by
  obtain ⟨item, -⟩ := Handle.item_of_resolve housed.unassigned hn
  have hq : s.HasPlace (.part n .bindings) :=
    ⟨housed.hasNode_of_item leads item, bindings_mem_parts n⟩
  exact ⟨hn, housed.partValue n _, housed.known _ hq,
    fun items => (housed.resolve_append leads hq items).trans hn⟩

theorem Gains.trans {v : Option Value} {q : Part} {items : List Value} {s'' : Store}
    (gains : s.Gains v q items s') (like : s'.Alike s'') : s.Gains v q items s'' := by
  obtain ⟨n, hn, has, admits, before⟩ := gains
  exact ⟨n, hn, has, admits, before.trans like⟩

end Store

namespace Script.Attacher

/-- The items are those that an attacher is there to attach.  What a source has may be taken
by others, too. -/
def Brings (a : Attacher) (s : Store) (items : List Value) : Prop :=
  match a with
  | .bind b => ∃ bs, b.bindings s = .ok bs ∧ items.map Value.line? = bs.map (some ∘ BlockLine.binding)
  | .paths _ v => ∃ texts, items = texts.map .text ∧
      ((∀ id, v.items ≠ .source id) → v.arguments.seen s = .ok texts)

/-- How an attacher ends: all that it brings is attached, or it has failed. -/
def Ends {α : Type} (a : Attacher) (h : Handle) (s : Store) (res : Except Fault α) (s' : Store) :
    Prop :=
  match res with
  | .ok _ => ∃ items, a.Brings s items ∧ s.Gains (h.item? s) a.part items s'
  | .error _ => s.Attached (h.item? s) a.part s'

variable {α : Type} {a : Attacher} {h : Handle} {s s' s'' : Store} {res : Except Fault α}

theorem Ends.attached (ends : a.Ends h s res s') : s.Attached (h.item? s) a.part s' := by
  cases res with
  | ok x =>
      obtain ⟨items, -, gains⟩ := ends
      exact .inr ⟨items, gains⟩
  | error fault => exact ends

theorem Ends.trans (ends : a.Ends h s res s') (like : s'.Alike s'') : a.Ends h s res s'' := by
  cases res with
  | ok x =>
      obtain ⟨items, brings, gains⟩ := ends
      exact ⟨items, brings, gains.trans like⟩
  | error fault =>
      obtain before | ⟨items, gains⟩ := ends
      · exact .inl (before.trans like)
      · exact .inr ⟨items, gains.trans like⟩

end Script.Attacher

section

variable {s s₀ : Store} {d : DocumentId} {h : Handle} {g : Progress Store} {o : Object}

theorem wp_extend (like : s₀.Alike s) (l : ListId) (items : List Value) :
    (l.extend items).wp calm (fun res _ s' =>
      (res = .ok () ∧ (s₀.modifyList l (·.append items)).Alike s') ∨
        ∃ fault, res = .error fault ∧ s₀.Alike s') g s := by
  rw [ListId.extend, wp_guarded]
  intro s₁ between₁ _
  refine ⟨trivial, ?_, fun _ _ => .inr ⟨_, rfl, like.trans between₁⟩⟩
  intro s₂ between₂ _
  exact ⟨trivial, trivial, .inl ⟨rfl, (like.trans (between₁.trans between₂)).append l items⟩⟩

theorem looks_arguments {v : Value} (lasting : ∀ id, v.items ≠ .source id) :
    v.arguments.Looks Store.Alike := by
  rw [Value.arguments.eq_def]
  split
  · trivial
  · split
    · exact looks_bind (looks_ofExcept _) fun _ => trivial
    · split
      · exact looks_ofExcept _
      · exact looks_bind (looks_snapshot _) fun _ => looks_ofExcept _
      · next id source => exact absurd source (lasting id)
      · trivial

theorem wp_arguments (like : s₀.Alike s) (v : Value) :
    v.arguments.wp calm (fun res _ s' => s₀.Alike s' ∧ ((∀ id, v.items ≠ .source id) →
      res = v.arguments.seen s₀ ∨ ∃ fault, res = .error (.borrow fault))) g s := by
  by_cases lasting : ∀ id, v.items ≠ .source id
  · exact wp_mono (fun _ _ _ h => ⟨h.1, fun _ => h.2⟩) (wp_look (looks_arguments lasting) like)
  · have taken := (aside_arguments v).mono fun _ aside s => aside.alike s
    exact wp_mono (fun _ _ _ h => ⟨h, fun h => absurd h lasting⟩) (wp_alike taken like)

/-- The list is looked up before the paths are taken from where they come from. -/
theorem wp_addPaths (housed : s.Housed) (leads : s.Leads h d) (slot : Slot)
    (build : h.expected = .build) (paths : Value) :
    (Receiver.addPaths (.handle h) slot paths).wp calm
      (fun res _ s' => (Script.Attacher.paths slot paths).Ends h s res s') g s := by
  rw [Receiver.addPaths, wp_bind]
  refine wp_mono ?_ (wp_look (looks_part (.handle h) (.paths slot)) (.refl s))
  rintro res g s₁ ⟨like₁, rfl | ⟨fault, rfl⟩⟩
  · rw [seen_part]
    cases hn : (Receiver.handle h).resolve.seen s with
    | error fault => exact .inl like₁
    | ok n =>
        obtain ⟨item, admits⟩ := Handle.item_of_resolve housed.unassigned hn
        have has : s.HasPlace (.part n (.paths slot)) := by
          refine ⟨housed.hasNode_of_item leads item, ?_⟩
          rw [build] at admits
          cases n with
          | build b => exact paths_mem_parts b slot
          | _ => cases admits
        change Program.wp _ _ (Program.ofExcept (s.partValue n (.paths slot)).toExtend >>= _) _ _
        rw [housed.partValue, wp_bind, wp_ofExcept]
        change Program.wp _ _ (paths.arguments >>= _) _ _
        rw [wp_bind]
        refine wp_mono ?_ (wp_arguments like₁ paths)
        rintro (fault | texts) g s₂ ⟨like₂, taken⟩
        · exact .inl like₂
        · refine wp_mono ?_ (wp_extend like₂ (s.part n (.paths slot)) (texts.map .text))
          rintro res g s₃ (⟨rfl, like₃⟩ | ⟨fault, rfl, like₃⟩)
          · refine ⟨_, ⟨texts, rfl, fun lasting => ?_⟩, n, item, has, fun w hw => ?_, like₃⟩
            · obtain seen | ⟨fault, broken⟩ := taken lasting
              · exact seen.symm
              · cases broken
            · obtain ⟨text, -, rfl⟩ := List.mem_map.mp hw
              rfl
          · exact .inl like₃
  · exact .inl like₁

namespace Script

theorem Binder.attacher_ends (housed : s.Housed) (leads : s.Leads h d) {b : Binder}
    {res : Except Fault Value} {s' : Store} (ends : b.Ends o (.handle h) s res s') :
    (Attacher.bind b).Ends h s res s' := by
  have bound {n : Node} {l : ListId} {bs : List Binding} (holds : (Receiver.handle h).Holds s n l)
      (bound : s.Bound l bs s') : ∃ items, items.map Value.line? = bs.map (some ∘ BlockLine.binding) ∧
        s.Gains (h.item? s) .bindings items s' := by
    obtain ⟨items, lines, like⟩ := bound
    obtain ⟨item, -⟩ := Handle.item_of_resolve housed.unassigned holds.node
    obtain rfl : s.part n .bindings = l := by simpa [housed.partValue] using holds.list
    have has : s.HasPlace (.part n .bindings) :=
      ⟨housed.hasNode_of_item leads item, bindings_mem_parts n⟩
    refine ⟨items, lines, n, item, has, fun w hw => ?_, like⟩
    have line : w.line? ∈ bs.map (some ∘ BlockLine.binding) := lines ▸ List.mem_map_of_mem hw
    obtain ⟨b, -, hb⟩ := List.mem_map.mp line
    obtain ⟨serial, b, rfl, -⟩ := Value.eq_of_line? hb.symm
    rfl
  cases res with
  | ok v =>
      obtain ⟨-, n, l, bs, holds, texts, more⟩ := ends
      obtain ⟨items, lines, gains⟩ := bound holds more
      exact ⟨items, ⟨bs, texts, lines⟩, gains⟩
  | error fault =>
      obtain ⟨-, same | ⟨n, l, first, holds, -, more⟩⟩ := ends
      · exact .inl same
      · obtain ⟨items, -, gains⟩ := bound holds more
        exact .inr ⟨items, gains⟩

/-- Whatever guards are used for meanwhile, an attacher attaches what it brings to the
statement that its handle leads to, or fails. -/
theorem Attacher.wp_program (housed : s.Housed) (leads : s.Leads h d) {a : Attacher} {m : Mixin}
    (mixin : mixin? (.handle h) = some m) (fits : a.fits m) :
    (chained o (a.program (.handle h))).wp calm
      (fun res _ s' => a.Ends h s res s') .start s := by
  cases a with
  | bind b =>
      refine wp_mono ?_ (Binder.wp_chained fun n hn => ⟨_, housed.holds leads hn⟩)
      exact fun _ _ _ => Binder.attacher_ends housed leads
  | paths slot v =>
      obtain ⟨rfl, -⟩ : m = .buildVariables ∧ slot ≠ .outputs := by simpa [Attacher.fits] using fits
      have build : h.expected = .build := by
        rw [mixin?] at mixin
        cases he : h.expected <;> simp_all
      rw [chained, wp_bind]
      refine wp_mono ?_ (wp_addPaths housed leads slot build v)
      rintro (fault | u) g s' ends <;> exact ends

end Script

end

end NinjaFile
