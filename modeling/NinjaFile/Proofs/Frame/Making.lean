import Mathlib.Data.List.Nodup
import NinjaFile.Proofs.Document.Start
import NinjaFile.Proofs.Frame.Terms
import NinjaFile.Proofs.Sharing.Looking

/-!
# Making things with lists

What is made gets lists that were made for it and for nothing else.  Until then they are in
the stock of the thread, where nobody else finds them.
-/

namespace NinjaFile

open Store Program
open Sharing (MadeList madeList_append)

namespace Housing

/-! ## Light programs -/

section

variable {α : Type}

theorem light_clerical {f : Store → Store} (h : Clerical f) : Light f := by
  intro s
  obtain ⟨logging, sources, serial, more, heq⟩ := h s
  rw [heq]
  exact ⟨{ Adds.refl s with serial := more }, fun _ hn => hn⟩

theorem light_aside {f : Store → Store} (h : Aside f) : Light f := light_clerical h.clerical

theorem light_serial {n : Store → Serial} (h : ∀ s, s.serial ≤ n s) :
    Light fun s => { s with serial := n s } :=
  light_clerical (clerical_serial h)

theorem every_aside {p : Action α} (h : p.Every Aside) : p.Every Light := h.mono fun _ => light_aside

/-! ## Views -/

theorem clerical_log (f : Store → Logging) :
    (Program.modify fun s => { s with logging := f s } : Action Unit).Every Clerical :=
  (quiet_write f).aside.mono fun _ => Aside.clerical

theorem clerical_viewMake (name : String) (enabled : Bool) (threshold : Int) :
    (View.make name (.bool enabled) (.int threshold)).Every Clerical :=
  every_bind (clerical_log _) fun _ => every_update (clerical_serial fun _ => Nat.le_succ _)

theorem clerical_lowerLevel (name : String) (level : Int) :
    (View.lowerLevel name (.int level)).Every Clerical := by
  refine every_bind ((aside_read _).mono fun _ => Aside.clerical) fun own => ?_
  refine every_bind (every_ofExcept _) fun less => ?_
  split
  · exact every_bind trivial fun _ => clerical_log _
  · trivial

theorem clerical_bringHandler (name format : String) :
    (View.bringHandler name (.text format)).Every Clerical := by
  refine every_bind ((aside_read _).mono fun _ => Aside.clerical) fun has => ?_
  split
  · trivial
  · refine every_bind (every_bind trivial fun on => ?_) fun _ => clerical_log _
    split
    · change (if Logging.isFormat format then _ else _ : Action String).Every Clerical
      split <;> trivial
    · trivial

theorem clerical_ofSettings {config : List (Value × Value)} (typed : TypedConfig config) :
    (View.ofSettings (DocumentId.loggerSettings (TypedConfig.settings config))).Every Clerical := by
  obtain ⟨enabled, level, settings⟩ := typed.loggerSettings_eq
  rw [settings]
  refine every_bind (every_bind trivial fun on => ?_) fun name => ?_
  · split <;> trivial
  · refine every_bind (clerical_viewMake name enabled level) fun view => every_bind trivial fun on => ?_
    split
    · exact every_bind (clerical_lowerLevel name level) fun _ =>
        every_bind (clerical_bringHandler name _) fun _ => trivial
    · trivial

end

/-! ## The stock of a thread -/

/-- Lists that a thread has made, with what each of them is for. -/
abbrev Lists := List (ListId × (Value → Prop))

/-- What the list of a part is for. -/
abbrev purpose (q : Part) (v : Value) : Prop := q.admits v = true

/-- The lists are the thread's own and hold what they are for. -/
structure Stock (ls : Lists) (trail : List (Store × Store)) (s : Store) : Prop where
  distinct : (ls.map Prod.fst).Nodup
  own : ∀ e ∈ ls, Own trail e.1
  holds : ∀ e ∈ ls, ∀ v ∈ (s.list e.1).items, e.2 v

section

variable {ls own : Lists} {l : ListId} {P : Value → Prop} {items : List Value}
  {trail : List (Store × Store)} {s s' : Store}

theorem firm_stock (ls : Lists) : Firm (Stock ls) where
  stable _ s s' good h rely := by
    refine { h with holds := fun e he => ?_ }
    rw [(rely.good good).2 e.1 (h.own e he)]
    exact h.holds e he
  idle _ s s' good h idle := by
    refine ⟨h.distinct, fun e he => idle.own_of_good good (h.own e he), fun e he => ?_⟩
    rw [idle.adds.list e.1 (good.made (h.own e he))]
    exact h.holds e he

theorem stock_nil : Stock [] trail s := ⟨List.nodup_nil, fun _ h => (nomatch h), fun _ h => nomatch h⟩

theorem Stock.insertList (h : Stock ls trail s) (good : Good trail s) (ownership : Ownership)
    (blocking : Bool) (hP : ∀ v ∈ items, P v) :
    let s' := (s.insertList (.make ownership blocking items)).2
    Act trail s s' ∧ Stock (ls ++ [(⟨s.lists.size⟩, P)]) (trail ++ [(s, s')]) s' := by
  intro s'
  have idle : Idle s s' := ⟨adds_insertList s _, fun n => (hasNode_insertList ..).mp⟩
  have after := (firm_stock ls).idle _ _ _ good h idle
  have size : s'.lists.size = s.lists.size + 1 := by simp [s', Store.insertList]
  refine ⟨idle.act, ?_, fun e he => ?_, fun e he => ?_⟩
  · rw [List.map_append, List.nodup_append]
    refine ⟨h.distinct, List.nodup_singleton _, ?_⟩
    rintro l hl _ hnew rfl
    obtain ⟨e, he, rfl⟩ := List.mem_map.mp hl
    have known := good.made (h.own e he)
    rw [List.mem_singleton.mp hnew] at known
    exact Nat.lt_irrefl _ known
  · rcases List.mem_append.mp he with he | he
    · exact after.own e he
    · cases List.mem_singleton.mp he
      refine ⟨madeList_append.mpr (.inr ⟨Nat.le_refl _, size ▸ Nat.lt_succ_self _⟩), fun x saw => ?_⟩
      have unseen := good.not_saw (l := ⟨s.lists.size⟩) (Nat.le_refl _) x
      rcases saw_append.mp saw with knows | houses
      · exact unseen knows
      · exact unseen (.inr (idle.houses_iff.mp houses))
  · rcases List.mem_append.mp he with he | he
    · exact after.holds e he
    · cases List.mem_singleton.mp he
      rw [list_insertList, if_pos rfl]
      exact hP

@[simp] theorem houses_modifyList (f : GuardedList → GuardedList) (j : ListId) (x : Place) :
    (s.modifyList l f).Houses j x ↔ s.Houses j x := by
  constructor
  · rintro ⟨has, spot⟩
    exact ⟨has, (spot_modifyList s l f x).symm.trans spot⟩
  · rintro ⟨has, spot⟩
    exact ⟨has, (spot_modifyList s l f x).trans spot⟩

theorem act_append (h : Own trail l ∨ ∃ x, Knows trail s l x ∧ ∀ v ∈ items, s.Suits x v) :
    Act trail s (s.modifyList l (·.append items)) where
  later :=
    ⟨Nat.le_of_eq (size_modifyList ..).symm, fun _ hn => hn, fun _ hd => ⟨hd, rfl⟩, rfl⟩
  houses j x houses := .inl (.inr ((houses_modifyList ..).mp houses))
  items j _ := by
    rw [items_append_eq]
    split
    · next heq =>
        obtain ⟨rfl, -⟩ := heq
        exact .inr (h.imp_right fun ⟨x, knows, suits⟩ =>
          ⟨x, items, knows, rfl, fun v hv => (suits v hv).mono fun _ hn => hn⟩)
    · exact .inl rfl

theorem Stock.append (h : Stock ls trail s) (good : Good trail s) (mem : (l, P) ∈ ls)
    (hP : ∀ v ∈ items, P v) :
    let s' := s.modifyList l (·.append items)
    Act trail s s' ∧ Stock ls (trail ++ [(s, s')]) s' := by
  refine ⟨act_append (.inl (h.own _ mem)), h.distinct, fun e he => ⟨?_, fun x saw => ?_⟩,
    fun e he => ?_⟩
  · exact madeList_append.mpr (.inl (h.own e he).made)
  · rcases saw_append.mp saw with (saw | houses) | houses
    · exact (h.own e he).unused x saw
    · exact good.vacant (h.own e he) x houses
    · exact good.vacant (h.own e he) x ((houses_modifyList ..).mp houses)
  · rw [items_append_eq]
    split
    · next heq =>
        obtain rfl := List.inj_on_of_nodup_map h.distinct he mem heq.1.symm
        intro v hv
        exact (List.mem_append.mp hv).elim (h.holds _ he v) (hP v)
    · exact h.holds e he

/-- Lists of the stock become those of places; the others stay in stock. -/
theorem Stock.house (h : Stock (ls ++ own) trail s) (good : Good trail s) (later : s.Later s')
    (lists : ∀ l, s'.list l = s.list l)
    (houses : ∀ l x, s'.Houses l x → Knows trail s l x ∨ ∃ P, (l, P) ∈ own ∧
      (∀ y, s'.Houses l y → s.Houses l y ∨ y = x) ∧ ∀ v, P v → s'.Suits x v) :
    Act trail s s' ∧ Stock ls (trail ++ [(s, s')]) s' := by
  have distinct := h.distinct
  rw [List.map_append, List.nodup_append] at distinct
  -- Nobody knows a list of the stock, so its new home is the only one it has.
  have vacant {e : ListId × (Value → Prop)} (he : e ∈ ls ++ own) (x : Place) :
      ¬ Knows trail s e.1 x := by
    rintro (saw | houses)
    · exact (h.own e he).unused x saw
    · exact good.vacant (h.own e he) x houses
  refine ⟨⟨later, fun l x hx => ?_, fun l _ => .inl (by rw [lists])⟩, distinct.1, fun e he => ?_,
    fun e he => ?_⟩
  · refine (houses l x hx).imp_right ?_
    rintro ⟨P, mem, only, suits⟩
    have mem := List.mem_append_right ls mem
    refine ⟨h.own _ mem, fun y hy => ?_, fun v hv => suits v ?_⟩
    · exact (only y hy).resolve_left fun hy => vacant mem y (.inr hy)
    · rw [lists] at hv
      exact h.holds _ mem v hv
  · have mem := List.mem_append_left own he
    refine ⟨madeList_append.mpr (.inl (h.own e mem).made), fun x saw => ?_⟩
    rcases saw_append.mp saw with knows | hx
    · exact vacant mem x knows
    · obtain knows | ⟨P, new, -⟩ := houses _ x hx
      · exact vacant mem x knows
      · exact distinct.2.2 _ (List.mem_map_of_mem he) _ (List.mem_map_of_mem new) rfl
  · rw [lists]
    exact h.holds e (List.mem_append_left own he)

def listsOf (n : Node) (place : Part → ListId) : Lists :=
  n.parts.map fun q => (place q, purpose q)

theorem Stock.join {n : Node} (place : Part → ListId) (h : Stock (ls ++ listsOf n place) trail s)
    (good : Good trail s) (adds : s.Adds s') (joins : s.Joins n place s') :
    Act trail s s' ∧ Stock ls (trail ++ [(s, s')]) s' ∧ s'.HasNode n := by
  have distinct := h.distinct
  rw [List.map_append, List.nodup_append, listsOf, List.map_map] at distinct
  obtain ⟨act, stock⟩ := h.house good (.of_adds adds) joins.list fun l x hx => by
    rcases (joins.hasPlace x).mp hx.has with old | ⟨q, hq, rfl⟩
    · exact .inl (.inr ⟨old, (joins.spot old).symm.trans hx.spot⟩)
    · obtain rfl : place q = l := (joins.own q hq).symm.trans hx.spot
      refine .inr ⟨_, List.mem_map_of_mem hq, fun y hy => ?_, fun v hv => hv⟩
      rcases (joins.hasPlace y).mp hy.has with old | ⟨r, hr, rfl⟩
      · exact .inl ⟨old, (joins.spot old).symm.trans hy.spot⟩
      · have same : place r = place q := (joins.own r hr).symm.trans hy.spot
        exact .inr (by rw [List.inj_on_of_nodup_map distinct.2.1 hr hq same])
  exact ⟨act, stock, (joins.nodes n).mpr (.inr rfl)⟩

/-! ## Programs with a stock -/

theorem does_listMake (ownership : Ownership) (blocking : Bool) (P : Value → Prop) :
    Does (Stock ls) (ListId.make ownership blocking []) fun l => Stock (ls ++ [(l, P)]) :=
  does_update (firm_stock ls).stable fun _ _ good h =>
    h.insertList good ownership blocking fun _ hv => nomatch hv

theorem does_addStock (mem : (l, P) ∈ ls) {v : Value} (hv : P v) :
    Does (Stock ls) (l.add v) fun _ => Stock ls :=
  does_guarded (firm_stock ls).stable <| does_update (firm_stock ls).stable fun _ _ good h =>
    h.append good mem fun _ hw => List.mem_singleton.mp hw ▸ hv

theorem does_extendStock (mem : (l, P) ∈ ls) (hP : ∀ v ∈ items, P v) :
    Does (Stock ls) (l.extend items) fun _ => Stock ls :=
  does_guarded (firm_stock ls).stable <| does_modify (firm_stock ls).stable fun _ _ good h =>
    h.append good mem hP

theorem does_makeObject {J : Assertion} (firm : Firm J) (f : Serial → Object) :
    Does J (makeObject f) fun v trail s => J trail s ∧ ∃ n, v = .object (f n) :=
  does_light firm (light_serial fun _ => Nat.le_succ _) fun _ _ _ h => ⟨h, _, rfl⟩

theorem does_makeBinding {J : Assertion} (firm : Firm J) (name value : Value) :
    Does J (makeBinding name value) fun v trail s => J trail s ∧ ∃ n b, v = .object (.binding n b) := by
  refine does_bind (does_ofExcept (Q := fun _ => J) fun _ _ _ _ _ h => h) fun name => ?_
  refine does_bind (does_ofExcept (Q := fun _ => J) fun _ _ _ _ _ h => h) fun value => ?_
  refine (does_makeObject firm fun n => .binding n ⟨name, value⟩).post ?_
  rintro _ _ _ ⟨h, n, rfl⟩
  exact ⟨h, n, _, rfl⟩

private theorem does_first {α : Type} {Q : α → Assertion} (ownership : Ownership) (name value : Value)
    {k : ListId → Action α}
    (hk : ∀ l, Does (Stock (ls ++ [(l, purpose .bindings)])) (k l) Q) :
    Does (Stock ls) (do
      let bindings ← ListId.make ownership false []
      let binding ← makeBinding name value
      let _ ← bindings.add binding
      k bindings) Q := by
  refine does_bind (does_listMake ownership false (purpose .bindings)) fun l => ?_
  refine does_bind (does_makeBinding (firm_stock _) name value) fun binding => ?_
  refine does_pull ?_
  rintro ⟨n, b, rfl⟩
  exact does_bind (does_addStock (List.mem_append_right _ (List.mem_singleton_self _)) rfl) fun _ => hk l

theorem does_ruleMake (name command ownership : Value) :
    Does (Stock ls) (RuleId.make name command ownership)
      fun r trail s => Stock ls trail s ∧ s.HasNode (.rule r) := by
  refine does_bind (does_ofExcept (Q := fun _ => Stock ls) fun _ _ _ _ _ h => h) fun name => ?_
  refine does_bind (does_ofExcept (Q := fun _ => Stock ls) fun _ _ _ _ _ h => h) fun ownership => ?_
  refine does_first ownership _ command fun l => does_update (firm_stock _).stable fun _ s good h => ?_
  exact Stock.join (fun _ => l) h good (adds_insertRule s _) (joins_insertRule s ⟨name, l⟩)

theorem does_poolMake (name depth ownership : Value) (builtIn : Bool) :
    Does (Stock ls) (PoolId.make name depth ownership (.bool builtIn))
      fun p trail s => Stock ls trail s ∧ s.HasNode (.pool p) := by
  refine does_bind (does_ofExcept (Q := fun _ => Stock ls) fun _ _ _ _ _ h => h) fun name => ?_
  refine does_bind (does_ofExcept (Q := fun _ => Stock ls) fun _ _ _ _ _ h => h) fun ownership => ?_
  refine does_first ownership _ depth fun l => does_update (firm_stock _).stable fun _ s good h => ?_
  exact Stock.join (fun _ => l) h good (adds_insertPool s _)
    (joins_insertPool s ⟨name, l, builtIn⟩)

/-! ## Names -/

section

variable {J : Assertion}

theorem does_storedMember {v : Value} {name : String} {Q : Value → Assertion} (firm : Firm J)
    (h : ∀ trail s w, Good (trail ++ [(s, s)]) s → J (trail ++ [(s, s)]) s →
      v.field? s name = some w → Q w (trail ++ [(s, s)]) s) : Does J (v.storedMember name) Q := by
  refine does_bind (R := fun found trail s => ∀ w, found = some w → Q w trail s) ?_ fun found => ?_
  · refine does_read firm fun trail s good hJ w hw => h trail s w good hJ ?_
    rw [← hw, Value.stored?_of_unassigned good.housed.unassigned]
  · cases found with
    | some w => exact does_pure fun _ _ _ hQ => hQ w rfl
    | none => exact does_fail _

theorem does_name (firm : Firm J) (v : Value) :
    Does J (v.member "name") fun w trail s => J trail s ∧ ∃ text, w = .text text := by
  have stored (v : Value) :
      Does J (v.storedMember "name") fun w trail s => J trail s ∧ ∃ text, w = .text text :=
    does_storedMember firm fun _ _ _ _ hJ hw => ⟨hJ, Sharing.field_name hw⟩
  rw [Value.member.eq_def]
  split
  · next h =>
      rw [Handle.member]
      split
      · next computed =>
          -- Only handles that insist on a rule or a pool have the name of their statement.
          have forwards : h.expected.forwards "name" = true := by
            simpa [Expected.computes] using computed
          refine does_bind (does_every firm (every_aside (looks_statement h).aside)) fun w => ?_
          rw [if_pos forwards]
          exact stored w
      · exact stored _
  · exact stored _

end

/-! ## Builds -/

private theorem does_makeSlots (ownership : Ownership) :
    Does (Stock ls) (makeSlots ownership) fun paths => Stock (ls ++ Slot.all.map fun slot =>
      (paths.get slot, purpose (.paths slot))) := by
  have list {ls : Lists} (slot : Slot) : Does (Stock ls) (ListId.make ownership false [])
      fun l => Stock (ls ++ [(l, purpose (.paths slot))]) :=
    does_listMake ownership false _
  refine does_bind (list .outputs) fun outputs => ?_
  refine does_bind (list .implicitOutputs) fun implicitOutputs => ?_
  refine does_bind (list .inputs) fun inputs => ?_
  refine does_bind (list .implicitInputs) fun implicitInputs => ?_
  refine does_bind (list .orderOnlyInputs) fun orderOnlyInputs => ?_
  refine does_bind (list .validations) fun validations => ?_
  refine does_pure fun _ _ _ h => ?_
  simpa [Slot.all, Slots.get] using h

theorem does_buildMake (rule outputs ownership : Value) :
    Does (Stock ls) (BuildId.make rule outputs ownership)
      fun b trail s => Stock ls trail s ∧ s.HasNode (.build b) := by
  refine does_bind (does_name (firm_stock ls) rule) fun ruleName => ?_
  refine does_pull ?_
  rintro ⟨text, rfl⟩
  refine does_bind (does_ofExcept (Q := fun _ => Stock ls) fun _ _ _ _ _ h => h) fun ownership => ?_
  refine does_bind (does_makeSlots ownership) fun paths => ?_
  refine does_bind (does_listMake ownership false (purpose .bindings))
    fun bindings => ?_
  let record : BuildRecord := ⟨text, paths, bindings⟩
  -- The lists are in stock in the order in which the build has them.
  have lists (b : BuildId) : (ls ++ Slot.all.map fun slot =>
      (paths.get slot, purpose (.paths slot))) ++
        [(bindings, purpose .bindings)] =
      ls ++ listsOf (.build b) record.place := by
    simp [listsOf, Node.parts, record, BuildRecord.place, Function.comp_def]
  rw [lists ⟨0⟩]
  have mem : (paths.outputs, purpose (.paths .outputs)) ∈
      ls ++ listsOf (.build ⟨0⟩) record.place :=
    List.mem_append_right _ (List.mem_map_of_mem (paths_mem_parts ⟨0⟩ .outputs))
  refine does_bind (does_every (firm_stock _) (every_aside (aside_arguments outputs))) fun texts => ?_
  refine does_bind (does_extendStock mem fun v hv => ?_) fun _ => ?_
  · obtain ⟨text, -, rfl⟩ := List.mem_map.mp hv
    rfl
  · refine does_update (firm_stock _).stable fun _ s good h => ?_
    exact Stock.join _ h good (adds_insertBuild s _) (joins_insertBuild s record)

/-! ## Documents -/

theorem Stock.document {r : DocumentRecord}
    (h : Stock (ls ++ [(r.arena.statements, fun _ => False)]) trail s) (good : Good trail s) :
    let s' := (s.insertDocument r).2
    Act trail s s' ∧ Stock ls (trail ++ [(s, s')]) s' ∧ s'.HasDocument ⟨s.documents.size⟩ := by
  intro s'
  have later : s.Later s' := by
    refine ⟨Nat.le_refl _, fun _ hn => hn, fun d hd => ⟨?_, ?_⟩, rfl⟩
    · exact (hasPlace_insertDocument s r (.statements d)).mpr (.inl hd)
    · rw [document_insertDocument, if_neg (Nat.ne_of_lt hd)]
  obtain ⟨act, stock⟩ := h.house good later (fun _ => rfl) fun l x hx => by
    rcases (hasPlace_insertDocument s r x).mp hx.has with old | rfl
    · exact .inl (.inr ⟨old, (spot_insertDocument r old).symm.trans hx.spot⟩)
    · obtain rfl : r.arena.statements = l := (spot_insertDocument_new s r).symm.trans hx.spot
      refine .inr ⟨_, List.mem_singleton_self _, fun y hy => ?_, fun v hv => hv.elim⟩
      refine ((hasPlace_insertDocument s r y).mp hy.has).imp_left fun old => ?_
      exact ⟨old, (spot_insertDocument r old).symm.trans hy.spot⟩
  exact ⟨act, stock, (hasPlace_insertDocument s r (.statements _)).mpr (.inr rfl)⟩

theorem does_documentMake {config : List (Value × Value)} (typed : TypedConfig config) :
    Does (Stock ls) (DocumentId.make (.mapping config))
      fun d trail s => Stock ls trail s ∧ s.HasDocument d := by
  have settings : Settings.ofValue (.mapping config) DocumentId.defaultSettings =
      Pure.pure (TypedConfig.settings config) := by
    cases config <;> rfl
  obtain ⟨threadSafe, htruth⟩ := typed.threadSafe_eq
  rw [DocumentId.make, settings]
  change Does (Stock ls) ((Settings.value (TypedConfig.settings config) "thread_safe").truth >>= _) _
  rw [htruth]
  change Does (Stock ls) (View.ofSettings _ >>= _) _
  refine does_bind (does_every (firm_stock ls)
    ((clerical_ofSettings typed).mono fun _ => light_clerical)) fun view => ?_
  let empty : Value → Prop := fun _ => False
  refine does_bind (R := fun arena => Stock (ls ++ [(arena.statements, empty)])) ?_ fun arena => ?_
  · exact does_bind (does_listMake _ true empty) fun l => does_pure fun _ _ _ h => h
  refine does_bind (does_ruleMake _ _ _) fun phony => ?_
  refine Does.pre (J := Stock (ls ++ [(arena.statements, empty)])) ?_ fun _ _ h => h.1
  refine does_bind (does_poolMake _ _ _ true) fun console => ?_
  refine Does.pre (J := Stock (ls ++ [(arena.statements, empty)])) ?_ fun _ _ h => h.1
  refine does_bind (does_every (firm_stock _) (every_aside (quiet_logBy (some view) _ _).aside)) fun _ => ?_
  exact does_update (firm_stock _).stable fun _ s good h => Stock.document h good

end

end Housing

end NinjaFile
