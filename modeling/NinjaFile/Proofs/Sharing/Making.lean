import Mathlib.Data.List.Nodup
import NinjaFile.Proofs.Sharing.Looking

/-!
# Making statements among others

The lists of a statement that is being made are reserved for it, one after the other,
until there is the statement.
-/

namespace NinjaFile.Sharing

open Store Program

/-- The call has not appended anything to the document. -/
def Clear (c : Setting) : Assertion := fun trail _ => added c.arena.statements trail = []

/-- The call has made lists which no statement has so far. -/
structure Reserved (c : Setting) (ls : List ListId) (trail : List (Store × Store)) (s : Store) :
    Prop where
  clear : Clear c trail s
  unused : ∀ l, c.stake.HasList trail l → Loose s l
  distinct : ls.Nodup
  own : ∀ l ∈ ls, c.stake.HasList trail l
  known : ∀ l ∈ ls, l.index < s.lists.size ∧ l ≠ c.arena.statements

/-- The statement is the call's own, and so are its lists. -/
structure Mine (c : Setting) (n : Node) (trail : List (Store × Store)) (s : Store) : Prop where
  own : c.stake.HasNode trail n
  has : s.HasNode n
  lists : ∀ q ∈ n.parts, c.stake.HasList trail (s.part n q)

section

variable {c : Setting} {held : List (LockId × Mode)} {J : Assertion} {ls : List ListId}
  {trail : List (Store × Store)} {s s' : Store}

theorem firm_clear : Firm c (Clear c) where
  stable _ _ _ h _ := h
  quiet _ _ _ h like _ := (added_same (like.items _)).trans h

theorem hasList_quiet (like : s.Alike s') {l : ListId} :
    c.stake.HasList (trail ++ [(s, s')]) l ↔ c.stake.HasList trail l := by
  rw [Stake.hasList_append, like.size]
  exact or_iff_left fun h => absurd h.2 (Nat.not_lt.mpr h.1)

theorem hasList_mono {l : ListId} (h : c.stake.HasList trail l) :
    c.stake.HasList (trail ++ [(s, s')]) l := Stake.hasList_append.mpr (.inl h)

theorem hasNode_mono {n : Node} (h : c.stake.HasNode trail n) :
    c.stake.HasNode (trail ++ [(s, s')]) n := Stake.hasNode_append.mpr (.inl h)

theorem firm_reserved (ls : List ListId) : Firm c (Reserved c ls) where
  stable _ s s' h hrely := by
    refine { h with unused := fun l hl n hn q hq heq => ?_, known := fun l hl => ?_ }
    · subst heq
      obtain ⟨has, heq⟩ := hrely.others n hn q hq hl
      exact h.unused _ hl n has q hq heq.symm
    · exact ⟨Nat.lt_of_lt_of_le (h.known l hl).1 hrely.grows.lists, (h.known l hl).2⟩
  quiet _ s s' h like same := by
    refine ⟨firm_clear.quiet _ _ _ h.clear like same, fun l hl n hn q hq => ?_, h.distinct,
      fun l hl => hasList_mono (h.own l hl), fun l hl => ?_⟩
    · rw [like.part]
      exact h.unused l ((hasList_quiet like).mp hl) n ((like.hasNode n).mp hn) q hq
    · rw [like.size]
      exact h.known l hl

theorem firm_mine (n : Node) : Firm c (Mine c n) where
  stable _ s s' h hrely := by
    refine { h with has := hrely.grows.nodes n h.has, lists := fun q hq => ?_ }
    rw [hrely.parts n h.own q hq]
    exact h.lists q hq
  quiet _ s s' h like _ := by
    refine ⟨hasNode_mono h.own, (like.hasNode n).mpr h.has, fun q hq => hasList_mono ?_⟩
    rw [like.part]
    exact h.lists q hq

/-! ## Lists of its own -/

theorem does_listMake (ownership : Ownership) :
    Does c held (Reserved c ls) (ListId.make ownership false []) fun l => Reserved c (ls ++ [l]) := by
  refine does_update (firm_reserved ls).stable fun trail s h hsafe => ?_
  have hadds := adds_insertList s (.make ownership false [])
  have larger : (s.insertList (.make ownership false [])).2.lists.size = s.lists.size + 1 := by
    simp [insertList]
  have ne : (⟨s.lists.size⟩ : ListId) ≠ c.arena.statements := fun heq =>
    absurd hsafe.place.known (by rw [← heq]; exact Nat.lt_irrefl _)
  refine ⟨.list ownership false [] fun v hv => (List.not_mem_nil hv).elim, ?_, ?_, ?_, ?_, ?_⟩
  · exact (added_same (by rw [hadds.list _ hsafe.place.known])).trans h.clear
  · intro l hl n hn q hq heq
    rw [hasNode_insertList] at hn
    rw [part_insertList] at heq
    rcases Stake.hasList_append.mp hl with hold | hnew
    · exact h.unused l hold n hn q hq heq
    · subst heq
      exact absurd (hsafe.parts n hn q hq).1 (Nat.not_lt.mpr hnew.1)
  · refine List.nodup_append.mpr ⟨h.distinct, List.nodup_singleton _, ?_⟩
    rintro l hl _ hnew rfl
    obtain rfl : l = ⟨s.lists.size⟩ := List.mem_singleton.mp hnew
    exact absurd (h.known _ hl).1 (Nat.lt_irrefl _)
  · intro l hl
    rcases List.mem_append.mp hl with hold | hnew
    · exact hasList_mono (h.own l hold)
    · obtain rfl := List.mem_singleton.mp hnew
      exact Stake.hasList_append.mpr (.inr ⟨Nat.le_refl _, larger ▸ Nat.lt_succ_self _⟩)
  · intro l hl
    rcases List.mem_append.mp hl with hold | hnew
    · exact ⟨larger ▸ Nat.lt_succ_of_lt (h.known l hold).1, (h.known l hold).2⟩
    · obtain rfl := List.mem_singleton.mp hnew
      exact ⟨larger ▸ Nat.lt_succ_self _, ne⟩

private theorem Reserved.append (h : Reserved c ls trail s) {l : ListId} (hl : l ∈ ls)
    {items : List Value} (lines : ∀ v ∈ items, v.isLine) :
    Act c.arena c.stake trail s (s.modifyList l (·.append items)) ∧
      Reserved c ls (trail ++ [(s, s.modifyList l (·.append items))])
        (s.modifyList l (·.append items)) := by
  have ne := (h.known l hl).2
  refine ⟨.append (h.own l hl) ne items lines, ?_, fun j hj n hn q hq => ?_, h.distinct,
    fun j hj => hasList_mono (h.own j hj), fun j hj => ?_⟩
  · exact (added_same (by rw [items_append_eq, if_neg fun heq => ne heq.1])).trans h.clear
  · rw [part_modifyList]
    rw [Stake.hasList_append, size_modifyList] at hj
    refine h.unused j (hj.resolve_right ?_) n ((hasNode_modifyList ..).mp hn) q hq
    exact fun hnew => absurd hnew.2 (Nat.not_lt.mpr hnew.1)
  · rw [size_modifyList]
    exact h.known j hj

private theorem may_write (h : Reserved c ls trail s) {l : ListId} (hl : l ∈ ls)
    (goes : c.stake.holds = false) : May c trail s l .write :=
  ⟨goes, .inr (h.own l hl)⟩

theorem does_addReserved (goes : c.stake.holds = false) {l : ListId} (hl : l ∈ ls) {v : Value}
    (line : v.isLine) :
    Does c [] (Reserved c ls) (l.add v) fun _ => Reserved c ls := by
  refine does_guarded (firm_reserved ls).stable (fun _ _ h _ => may_write h hl goes) ?_
  refine does_update (firm_reserved ls).stable fun _ _ h _ => ?_
  exact h.append hl fun w hw => List.mem_singleton.mp hw ▸ line

theorem does_extendReserved (goes : c.stake.holds = false) {l : ListId} (hl : l ∈ ls)
    (texts : List String) :
    Does c [] (Reserved c ls) (l.extend (texts.map .text)) fun _ => Reserved c ls := by
  refine does_guarded (firm_reserved ls).stable (fun _ _ h _ => may_write h hl goes) ?_
  refine does_modify (firm_reserved ls).stable fun _ _ h _ => h.append hl fun w hw => ?_
  obtain ⟨text, -, rfl⟩ := List.mem_map.mp hw
  rfl

/-! ## The statement -/

theorem alike_serial (s : Store) (n : Serial) : s.Alike { s with serial := n } :=
  .of_lists rfl rfl rfl rfl rfl rfl

/-- An object with a binding of the texts of two values. -/
def Binds (name value v : Value) : Prop :=
  ∃ serial b, v = .object (.binding serial b) ∧ name.toArgument = .ok b.name ∧
    value.toArgument = .ok b.value

theorem Binds.line {name value v : Value} (h : Binds name value v) : v.isLine := by
  obtain ⟨serial, b, rfl, -⟩ := h
  rfl

theorem does_makeBinding (firm : Firm c J) (name value : Value) :
    Does c held J (makeBinding name value) fun v trail s => J trail s ∧ Binds name value v := by
  refine does_bind (R := fun text trail s => J trail s ∧ name.toArgument = .ok text)
    (does_toArgument fun text h _ _ hJ => ⟨hJ, h⟩) fun n => ?_
  refine does_bind (R := fun text trail s => J trail s ∧ name.toArgument = .ok n ∧
    value.toArgument = .ok text) (does_toArgument fun text h _ _ hJ => ⟨hJ.1, hJ.2, h⟩) fun x => ?_
  refine does_quiet (firm.and (firm_pure _)) (fun s => alike_serial s _) (fun _ => rfl) ?_
  rintro trail s ⟨hJ, hn, hx⟩ -
  exact ⟨hJ, _, ⟨n, x⟩, rfl, hn, hx⟩

private theorem Reserved.born (h : Reserved c ls trail s) {n : Node} (hadds : s.Adds s')
    (lists : s'.lists = s.lists) (new : ¬ s.HasNode n)
    (has : ∀ m, s'.HasNode m ↔ s.HasNode m ∨ m = n) (parts : listsOf s' n = ls) :
    Act c.arena c.stake trail s s' ∧ Clear c (trail ++ [(s, s')]) s' ∧
      Mine c n (trail ++ [(s, s')]) s' := by
  have mem (q : Part) (hq : q ∈ n.parts) : s'.part n q ∈ ls := parts ▸ List.mem_map_of_mem hq
  have own (q : Part) (hq : q ∈ n.parts) : c.stake.HasList trail (s'.part n q) :=
    h.own _ (mem q hq)
  have making : Making c.arena n s s' := by
    refine ⟨hadds, lists, new, has, fun q hq => ?_, fun q hq r hr heq => ?_⟩
    · obtain ⟨known, ne⟩ := h.known _ (mem q hq)
      exact ⟨known, ne, h.unused _ (own q hq)⟩
    · have distinct : (listsOf s' n).Nodup := parts ▸ h.distinct
      exact List.inj_on_of_nodup_map distinct hq hr heq
  have there := (has n).mpr (.inr rfl)
  refine ⟨.node making own, ?_, ?_, there, fun q hq => hasList_mono (own q hq)⟩
  · exact (added_same (by rw [Store.list, Store.list, lists])).trans h.clear
  · exact Stake.hasNode_append.mpr (.inr ⟨new, there⟩)

variable (goes : c.stake.holds = false)

include goes

/-- What is made first of a rule or a pool: its list with one binding in it. -/
private theorem does_first {α : Type} {Q : α → Assertion} (ownership : Ownership) (name value : Value)
    {k : ListId → Action α} (h : ∀ l, Does c [] (Reserved c [l]) (k l) Q) :
    Does c [] (Reserved c []) (ListId.make ownership false [] >>= fun bindings =>
      makeBinding name value >>= fun binding => bindings.add binding >>= fun _ => k bindings) Q := by
  refine does_bind (does_listMake ownership) fun l => ?_
  refine does_bind (does_makeBinding (firm_reserved [l]) _ _) fun binding => ?_
  refine does_bind (does_pull fun binds => ?_) fun _ => h l
  exact does_addReserved goes (List.mem_singleton_self l) binds.line

theorem does_ruleMake (name command : Value) (ownership : Ownership) :
    Does c [] (Reserved c []) (RuleId.make name command (.ownership ownership))
      fun r trail s => Clear c trail s ∧ Mine c (.rule r) trail s := by
  refine does_bind (does_toArgument (Q := fun _ => Reserved c []) fun _ _ _ _ h => h) fun name => ?_
  refine does_bind (R := fun o => Reserved c []) (does_pure fun _ _ h => h) fun o => ?_
  refine does_first goes o _ _ fun l => does_update (firm_reserved [l]).stable fun trail s h _ => ?_
  refine h.born (adds_insertRule s _) rfl (Nat.lt_irrefl _) (fun m => ?_) ?_
  · cases m with
    | rule i =>
        cases i
        simp [HasNode, insertRule, Nat.le_iff_lt_or_eq, Nat.lt_succ_iff]
    | build | pool => simp [HasNode, insertRule]
  · have found : (s.insertRule ⟨name, l⟩).2.rule ⟨s.rules.size⟩ = ⟨name, l⟩ :=
      (Table.get_insert s.rules _ _).trans (if_pos rfl)
    simp [listsOf, Node.parts, Store.part, insertRule] at found ⊢
    exact congrArg RuleRecord.bindings found

theorem does_poolMake (name depth : Value) (ownership : Ownership) (builtIn : Bool) :
    Does c [] (Reserved c []) (PoolId.make name depth (.ownership ownership) (.bool builtIn))
      fun p trail s => Clear c trail s ∧ Mine c (.pool p) trail s := by
  refine does_bind (does_toArgument (Q := fun _ => Reserved c []) fun _ _ _ _ h => h) fun name => ?_
  refine does_bind (R := fun o => Reserved c []) (does_pure fun _ _ h => h) fun o => ?_
  refine does_first goes o _ _ fun l => does_update (firm_reserved [l]).stable fun trail s h _ => ?_
  refine h.born (adds_insertPool s _) rfl (Nat.lt_irrefl _) (fun m => ?_) ?_
  · cases m with
    | pool i =>
        cases i
        simp [HasNode, insertPool, assignAll, Nat.le_iff_lt_or_eq, Nat.lt_succ_iff]
    | build | rule => simp [HasNode, insertPool, assignAll]
  · have found : (s.insertPool ⟨name, l, builtIn⟩).2.pool ⟨s.pools.size⟩ = ⟨name, l, builtIn⟩ :=
      (Table.get_insert s.pools _ _).trans (if_pos rfl)
    simp [listsOf, Node.parts, Store.part, insertPool, assignAll] at found ⊢
    exact congrArg PoolRecord.bindings found

omit goes in
private theorem does_makeSlots (ownership : Ownership) :
    Does c held (Reserved c []) (makeSlots ownership) fun paths =>
      Reserved c (Slot.all.map paths.get) := by
  refine does_bind (does_listMake ownership) fun outputs => ?_
  refine does_bind (does_listMake ownership) fun implicitOutputs => ?_
  refine does_bind (does_listMake ownership) fun inputs => ?_
  refine does_bind (does_listMake ownership) fun implicitInputs => ?_
  refine does_bind (does_listMake ownership) fun orderOnlyInputs => ?_
  refine does_bind (does_listMake ownership) fun validations => ?_
  exact does_pure fun _ _ h => h

theorem does_buildMake (rule outputs : Value) (ownership : Ownership) :
    Does c [] (fun trail s => Reserved c [] trail s ∧ s.Offers c.stake.borrows rule ∧ s.Offers c.stake.borrows outputs)
      (BuildId.make rule outputs (.ownership ownership))
      fun b trail s => Clear c trail s ∧ Mine c (.build b) trail s := by
  have durable : Durable fun s => s.Offers c.stake.borrows rule ∧ s.Offers c.stake.borrows outputs :=
    fun s s' h hgrows => ⟨hgrows.offers h.1, hgrows.offers h.2⟩
  refine does_bind (does_name ((firm_reserved []).and durable.firm) fun _ _ h => h.2.1) fun ruleName => ?_
  refine does_bind (R := fun o trail s => (Reserved c [] trail s ∧ s.Offers c.stake.borrows rule ∧ s.Offers c.stake.borrows outputs) ∧
    ∃ text, ruleName = .text text) (does_pure fun _ _ h => ⟨h.1, ?_⟩) fun o => ?_
  · obtain ⟨-, text, heq, -⟩ := h
    exact ⟨text, heq⟩
  refine does_pull ?_
  rintro ⟨text, rfl⟩
  refine does_bind (does_frame durable.persistent (does_makeSlots o)) fun paths => ?_
  refine does_bind (does_frame durable.persistent (does_listMake o)) fun bindings => ?_
  let ls := Slot.all.map paths.get ++ [bindings]
  refine does_bind (does_arguments ((firm_reserved ls).and durable.firm) fun _ _ h => h.2.2) fun texts => ?_
  refine does_bind (R := fun _ => Reserved c ls) ?_ fun _ => ?_
  · refine does_mono (does_extendReserved goes ?_ texts) (fun _ _ h => h.1.1) fun _ _ _ h => h
    exact List.mem_append_left _ (List.mem_map_of_mem (Slot.mem_all .outputs))
  · refine does_update (firm_reserved ls).stable fun trail s h _ => ?_
    refine h.born (adds_insertBuild s _) rfl (Nat.lt_irrefl _) (fun m => ?_) ?_
    · cases m with
      | build i =>
          cases i
          simp [HasNode, insertBuild, assignAll, Nat.le_iff_lt_or_eq, Nat.lt_succ_iff]
      | pool | rule => simp [HasNode, insertBuild, assignAll]
    · have found : (s.insertBuild ⟨text, paths, bindings⟩).2.build ⟨s.builds.size⟩ =
          ⟨text, paths, bindings⟩ := (Table.get_insert s.builds _ _).trans (if_pos rfl)
      have bindingsPart : (s.insertBuild ⟨text, paths, bindings⟩).2.part
          (.build ⟨s.builds.size⟩) .bindings = bindings := by
        simp only [Store.part, found]
      have pathsPart (slot : Slot) : (s.insertBuild ⟨text, paths, bindings⟩).2.part
          (.build ⟨s.builds.size⟩) (.paths slot) = paths.get slot := by
        simp only [Store.part, found]
      change (listsOf (s.insertBuild ⟨text, paths, bindings⟩).2 (.build ⟨s.builds.size⟩)) = ls
      simp [listsOf, Node.parts, bindingsPart, pathsPart, ls]

end

end NinjaFile.Sharing
