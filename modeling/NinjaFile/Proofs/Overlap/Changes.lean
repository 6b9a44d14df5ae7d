import NinjaFile.Proofs.Frame.Framing
import NinjaFile.Proofs.Sharing.Preservation
import NinjaFile.Proofs.Store.Alike

/-!
# Changes that lose nothing

What a step may do while documents are being rendered.  Lists only grow, and where a statement
gets a copy of one of its lists, the copy holds all that the list holds.  A statement in a
document that threads share has lists that are shared, and it has these for good, so long as
nobody gives them to one owner; the statements for which this is so are said to be kept.
-/

namespace NinjaFile

open Store

namespace Store

/-- All lists of a statement are shared. -/
def Settled (s : Store) (n : Node) : Prop := ∀ q ∈ n.parts, s.Shares (s.part n q)

/-- No two documents have the same list. -/
def Parted (s : Store) : Prop := ∀ d e, s.HasDocument d → s.HasDocument e →
  (s.document d).arena.statements = (s.document e).arena.statements → d = e

theorem Housed.parted {s : Store} (h : s.Housed) : s.Parted :=
  fun d e hd he heq => Place.statements.inj (h.apart (.statements d) (.statements e) hd he heq)

theorem Housed.hasNode_of_mem {s : Store} (h : s.Housed) {d : DocumentId} (hd : s.HasDocument d)
    {n : Node} (hn : n.toValue ∈ s.held (.statements d)) : s.HasNode n := by
  obtain ⟨o, heq, -, has⟩ := h.suits (.statements d) hd _ hn
  refine has n ?_
  rw [← Object.node?_ofNode n]
  exact congrArg Object.node? (Value.object.inj heq).symm

end Store

namespace Overlap

variable {kept : Node → Prop} {s s' s'' : Store}

/-! ## What lasts -/

/-- What there is stays and grows, and kept statements do not lose a list or anything in it. -/
structure Gentle (kept : Node → Prop) (s s' : Store) : Prop where
  lists : s.lists.size ≤ s'.lists.size
  items : ∀ l, (s.list l).items <+: (s'.list l).items
  ownership : ∀ l : ListId, l.index < s.lists.size → (s'.list l).ownership = (s.list l).ownership
  nodes : ∀ n, s.HasNode n → s'.HasNode n
  fields : ∀ n, s.HasNode n → s'.fields n = s.fields n
  documents : ∀ d, s.HasDocument d → s'.HasDocument d ∧ s'.document d = s.document d
  parts : ∀ n, kept n → s.HasNode n → s.Settled n → ∀ q ∈ n.parts, s'.part n q = s.part n q
  held : ∀ n, kept n → s.HasNode n → ∀ q ∈ n.parts,
    s.held (.part n q) <+: s'.held (.part n q)

namespace Gentle

theorem shares (h : Gentle kept s s') {l : ListId} (hl : s.Shares l) : s'.Shares l :=
  ⟨Nat.lt_of_lt_of_le hl.known h.lists, (h.ownership l hl.known).trans hl.shared⟩

theorem settled (h : Gentle kept s s') {n : Node} (hk : kept n) (hn : s.HasNode n)
    (settled : s.Settled n) : s'.Settled n := by
  intro q hq
  rw [h.parts n hk hn settled q hq]
  exact h.shares (settled q hq)

theorem statements (h : Gentle kept s s') {d : DocumentId} (hd : s.HasDocument d) :
    s.held (.statements d) <+: s'.held (.statements d) := by
  rw [Store.held, Store.held, spot, spot, (h.documents d hd).2]
  exact h.items _

theorem of_alike (like : s.Alike s') : Gentle kept s s' where
  lists := Nat.le_of_eq like.size.symm
  items l := by simp only [like.items, List.prefix_rfl]
  ownership l _ := like.ownership l
  nodes n := (like.hasNode n).mpr
  fields n _ := like.fields n
  documents d hd := ⟨(like.hasDocument d).mpr hd, like.document_eq d⟩
  parts n _ _ _ q _ := like.part n q
  held n _ _ q _ := by simp only [like.held, List.prefix_rfl]

theorem refl (s : Store) : Gentle kept s s := of_alike (.refl s)

theorem trans (h : Gentle kept s s') (h' : Gentle kept s' s'') : Gentle kept s s'' where
  lists := Nat.le_trans h.lists h'.lists
  items l := (h.items l).trans (h'.items l)
  ownership l hl :=
    (h'.ownership l (Nat.lt_of_lt_of_le hl h.lists)).trans (h.ownership l hl)
  nodes n hn := h'.nodes n (h.nodes n hn)
  fields n hn := (h'.fields n (h.nodes n hn)).trans (h.fields n hn)
  documents d hd := by
    obtain ⟨has, same⟩ := h.documents d hd
    obtain ⟨has', same'⟩ := h'.documents d has
    exact ⟨has', same'.trans same⟩
  parts n hk hn settled q hq :=
    (h'.parts n hk (h.nodes n hn) (h.settled hk hn settled) q hq).trans (h.parts n hk hn settled q hq)
  held n hk hn q hq := (h.held n hk hn q hq).trans (h'.held n hk (h.nodes n hn) q hq)

theorem of_adds (h : s.Adds s') : Gentle kept s s' where
  lists := h.lists
  items := h.extends_.items
  ownership l hl := by rw [h.list l hl]
  nodes _ := h.hasNode
  fields _ := h.fields
  documents d hd := by
    rw [HasDocument, document, h.documents]
    exact ⟨hd, rfl⟩
  parts _ _ hn _ q _ := h.part hn q
  held n _ hn q _ := by
    rw [Store.held, Store.held, spot, spot, h.part hn]
    exact h.extends_.items _

theorem append (s : Store) (l : ListId) (items : List Value) :
    Gentle kept s (s.modifyList l (·.append items)) where
  lists := Nat.le_of_eq (size_modifyList ..).symm
  items := (extends_append s l items).items
  ownership _ _ := ownership_append ..
  nodes _ hn := hn
  fields n _ := by cases n <;> rfl
  documents _ hd := ⟨hd, rfl⟩
  parts n _ _ _ q _ := part_modifyList ..
  held n _ _ q _ := by
    rw [Store.held, Store.held, spot_modifyList]
    exact (extends_append s l items).items _

theorem insertDocument (s : Store) (r : DocumentRecord) : Gentle kept s (s.insertDocument r).2 where
  lists := Nat.le_refl _
  items _ := List.prefix_rfl
  ownership _ _ := rfl
  nodes n hn := by cases n <;> exact hn
  fields n _ := by cases n <;> rfl
  documents d hd :=
    ⟨(hasPlace_insertDocument s r (.statements d)).mpr (.inl hd), by
      rw [document_insertDocument, if_neg (Nat.ne_of_lt hd)]⟩
  parts n _ _ _ q _ := by cases n <;> cases q <;> rfl
  held n _ hn q hq := by
    have same := held_insertDocument r (show s.HasPlace (.part n q) from ⟨hn, hq⟩)
    exact same ▸ List.prefix_rfl

/-- A statement gets another list for one that is not shared, or it is not kept; the new list
holds what the other one holds. -/
theorem setPart {n : Node} {q : Part} {l : ListId} (hq : s.HasPlace (.part n q))
    (free : kept n → ¬ s.Settled n) (same : kept n → s.held (.part n q) <+: (s.list l).items) :
    Gentle kept s (s.setPart n q l) where
  lists := Nat.le_of_eq (by rw [lists_setPart])
  items _ := by simp only [list_setPart, List.prefix_rfl]
  ownership _ _ := by rw [list_setPart]
  nodes m := (hasNode_setPart ..).mpr
  fields m _ := fields_setPart ..
  documents d hd := by
    rw [HasDocument, document, setPart_eq]
    exact ⟨hd, rfl⟩
  parts m hm has settled r hr := by
    rcases part_setPart_or hq.1 hq.2 hr l with ⟨rfl, -⟩ | heq
    · exact absurd settled (free hm)
    · exact heq
  held m hm has r hr := by
    have other : s.HasPlace (.part m r) := ⟨has, hr⟩
    rw [show (s.setPart n q l).held (.part m r) = _ from congrArg (fun j => (Store.list _ j).items)
      (spot_setPart hq l other), list_setPart]
    split
    · next heq =>
        cases heq
        exact same hm
    · exact List.prefix_rfl

end Gentle

/-! ## What holds all the time -/

/-- Nobody waits for a list of one owner, lists that are no documents hold no statements, and the
kept statements of documents have shared lists. -/
structure Neat (kept : Node → Prop) (s : Store) : Prop where
  fits : ∀ l, (s.list l).ownership = .single → (s.list l).guard.isLocking = false
  plain : ∀ l, (∀ d, s.HasDocument d → (s.document d).arena.statements ≠ l) →
    ∀ v ∈ (s.list l).items, v.node? = none
  settled : ∀ d, s.HasDocument d → ∀ n, kept n → n.toValue ∈ s.held (.statements d) → s.Settled n

/-- A step that loses nothing and leaves all as it should be. -/
structure Fair (kept : Node → Prop) (s s' : Store) : Prop where
  gentle : Gentle kept s s'
  neat : s.Housed → s'.Parted → Neat kept s → Neat kept s'

namespace Fair

/-- A step is fair if guards are of the right kind after it, and if only documents get
statements, with lists that are shared. -/
theorem of_gentle (gentle : Gentle kept s s')
    (fits : ∀ l, (s'.list l).ownership = .single →
      (s.list l).ownership = .single ∧ (s'.list l).guard.isLocking = (s.list l).guard.isLocking ∨
        (s'.list l).guard.isLocking = false)
    (items : ∀ l, ∀ v ∈ (s'.list l).items, v ∈ (s.list l).items ∨ v.node? = none ∨
      (∃ d, s.HasDocument d ∧ (s.document d).arena.statements = l) ∧
        ∀ n, v = n.toValue → kept n → s'.Settled n) : Fair kept s s' where
  gentle := gentle
  neat housed parted neat := by
    have plainNode (n : Node) : n.toValue.node? = some n := Object.node?_ofNode n
    refine ⟨fun l single => ?_, fun l other v hv => ?_, fun d hd n hk hn => ?_⟩
    · obtain ⟨single', kind⟩ | cooperative := fits l single
      · exact kind.trans (neat.fits l single')
      · exact cooperative
    · obtain old | plain | ⟨⟨d, hd, heq⟩, -⟩ := items l v hv
      · refine neat.plain l (fun d hd heq => ?_) v old
        obtain ⟨has, same⟩ := gentle.documents d hd
        exact other d has (same ▸ heq)
      · exact plain
      · obtain ⟨has, same⟩ := gentle.documents d hd
        exact absurd (same ▸ heq) (other d has)
    · obtain old | plain | ⟨-, settled⟩ := items _ _ hn
      · by_cases has : s.HasDocument d
        · rw [spot, (gentle.documents d has).2] at old
          exact gentle.settled hk (housed.hasNode_of_mem has old) (neat.settled d has n hk old)
        · -- A new document has a list that was that of no document before.
          refine absurd (neat.plain _ (fun e he heq => has ?_) _ old) (by simp [plainNode])
          obtain ⟨he', same⟩ := gentle.documents e he
          rw [← same] at heq
          exact parted e d he' hd heq ▸ he
      · exact absurd plain (by simp [plainNode])
      · exact settled n rfl hk

theorem refl (s : Store) : Fair kept s s := ⟨.refl s, fun _ _ h => h⟩

theorem of_adds (adds : s.Adds s') (new : ∀ l : ListId, s.lists.size ≤ l.index →
      s'.list l = s.list l ∨
        ((s'.list l).ownership = .single → (s'.list l).guard.isLocking = false) ∧
          ∀ v ∈ (s'.list l).items, v.node? = none) : Fair kept s s' := by
  refine of_gentle (.of_adds adds) (fun l single => ?_) fun l v hv => ?_
  · by_cases old : l.index < s.lists.size
    · exact .inl (by rw [← adds.list l old]; exact ⟨single, rfl⟩)
    · obtain same | ⟨fits, -⟩ := new l (Nat.not_lt.mp old)
      · exact .inl (by rw [← same]; exact ⟨single, rfl⟩)
      · exact .inr (fits single)
  · by_cases old : l.index < s.lists.size
    · exact .inl (adds.list l old ▸ hv)
    · obtain same | ⟨-, plain⟩ := new l (Nat.not_lt.mp old)
      · exact .inl (same ▸ hv)
      · exact .inr (.inl (plain v hv))

theorem of_adds_only (adds : s.Adds s') (lists : s'.lists = s.lists) : Fair kept s s' :=
  of_adds adds fun l _ => .inl (by rw [list, list, lists])

theorem clerical {f : Store → Store} (h : Clerical f) (s : Store) : Fair kept s (f s) := by
  obtain ⟨logging, sources, serial, more, heq⟩ := h s
  rw [heq]
  exact of_adds_only { Adds.refl s with serial := more } rfl

theorem insertList (s : Store) (ownership : Ownership) (blocking : Bool) {items : List Value}
    (plain : ∀ v ∈ items, v.node? = none) :
    Fair kept s (s.insertList (.make ownership blocking items)).2 := by
  refine of_adds (adds_insertList s _) fun l _ => ?_
  rw [list_insertList]
  split
  · refine .inr ⟨fun single => ?_, plain⟩
    obtain rfl : ownership = .single := single
    rfl
  · exact .inl rfl

theorem append (s : Store) (l : ListId) {items : List Value}
    (suits : ∀ v ∈ items, v.node? = none ∨ (∃ d, s.HasDocument d ∧ (s.document d).arena.statements = l) ∧
      ∀ n, v = n.toValue → kept n → s.Settled n) :
    Fair kept s (s.modifyList l (·.append items)) := by
  refine of_gentle (.append s l items) (fun j single => .inl ⟨?_, ?_⟩) fun j v hv => ?_
  · rwa [ownership_append] at single
  · rw [list_modifyList]
    split <;> rfl
  · rw [items_append_eq] at hv
    split at hv
    · next heq =>
        obtain ⟨rfl, -⟩ := heq
        rcases List.mem_append.mp hv with old | new
        · exact .inl old
        · refine .inr ((suits v new).imp_right fun ⟨has, settled⟩ => ⟨has, fun n hn hk q hq => ?_⟩)
          rw [part_modifyList]
          exact shares_append l items (settled n hn hk q hq)
    · exact .inl hv

theorem insertDocument (s : Store) (r : DocumentRecord) : Fair kept s (s.insertDocument r).2 :=
  of_gentle (.insertDocument s r) (fun _ single => .inl ⟨single, rfl⟩) fun _ _ hv => .inl hv

theorem setPart {n : Node} {q : Part} {l : ListId} (hq : s.HasPlace (.part n q))
    (free : kept n → ¬ s.Settled n) (same : kept n → s.held (.part n q) <+: (s.list l).items) :
    Fair kept s (s.setPart n q l) := by
  refine of_gentle (.setPart hq free same) (fun j single => ?_) fun j v hv => ?_
  · rw [list_setPart] at single ⊢
    exact .inl ⟨single, rfl⟩
  · rw [list_setPart] at hv
    exact .inl hv

theorem assignAll (h : Fair kept s s') (i : Identity) (attributes : List (String × Value)) :
    Fair kept s (s'.assignAll i attributes) := by
  rw [assignAll_eq]
  have hasNode (n : Node) (assigned : List ((Identity × String) × Value)) :
      ({ s' with assigned := assigned } : Store).HasNode n ↔ s'.HasNode n := by
    cases n <;> exact Iff.rfl
  have part (n : Node) (q : Part) (assigned : List ((Identity × String) × Value)) :
      ({ s' with assigned := assigned } : Store).part n q = s'.part n q := by
    cases n <;> cases q <;> rfl
  have fields (n : Node) (assigned : List ((Identity × String) × Value)) :
      ({ s' with assigned := assigned } : Store).fields n = s'.fields n := by
    cases n <;> rfl
  refine ⟨⟨h.gentle.lists, h.gentle.items, h.gentle.ownership, fun n hn => ?_, fun n hn => ?_,
    h.gentle.documents, fun n hk hn old q hq => ?_, fun n hk hn q hq => ?_⟩, fun housed parted neat => ?_⟩
  · exact (hasNode n _).mpr (h.gentle.nodes n hn)
  · exact (fields n _).trans (h.gentle.fields n hn)
  · exact (part n q _).trans (h.gentle.parts n hk hn old q hq)
  · rw [Store.held, Store.held, spot, spot, part]
    exact h.gentle.held n hk hn q hq
  · obtain ⟨fits, plain, settled⟩ := h.neat housed parted neat
    refine ⟨fits, plain, fun d hd n hk hn q hq => ?_⟩
    rw [part]
    obtain ⟨known, shared⟩ := settled d hd n hk hn q hq
    exact ⟨known, shared⟩

end Fair

theorem Neat.setGuard (h : Neat kept s) (lock : LockId) {g : Guard}
    (kind : g.isLocking = (s.guard lock).isLocking) : Neat kept (s.setGuard lock g) := by
  have like := Alike.setGuard s lock g
  refine ⟨fun l single => ?_, fun l other v hv => ?_, fun d hd n hk hn q hq => ?_⟩
  · rw [like.ownership] at single
    have fits := h.fits l single
    rw [list_setGuard]
    split
    · next heq =>
        obtain ⟨rfl, -⟩ := heq
        exact kind.trans fits
    · exact fits
  · rw [like.items] at hv
    refine h.plain l (fun d hd => ?_) v hv
    rw [← like.document_eq]
    exact other d ((like.hasDocument d).mpr hd)
  · rw [like.held] at hn
    rw [like.shares, like.part]
    exact h.settled d ((like.hasDocument d).mp hd) n hk hn q hq

theorem neat_ofFiles (files : FileTree) : Neat kept (.ofFiles files) where
  fits _ _ := rfl
  plain _ _ _ hv := nomatch hv
  settled _ hd := absurd hd (Nat.not_lt_zero _)

end Overlap

end NinjaFile
