import NinjaFile.Proofs.Document.Making
import NinjaFile.Proofs.Sharing.Calls

/-!
# Acts on a shared document

What one atomic step of a call may do to the store: it adds new things, it adds to its
own lists and replaces them by copies, and once it may append a statement to the document,
when all lists of the statement are shared.
-/

namespace NinjaFile

/-- What the lists of statements hold: paths and bindings. -/
def Value.isLine : Value → Bool
  | .text _ => true
  | .object (.binding ..) => true
  | _ => false

namespace Store

/-- Two stores that differ in guards, in log lines and in sources at most. -/
structure Alike (s s' : Store) : Prop where
  size : s'.lists.size = s.lists.size
  items : ∀ l, (s'.list l).items = (s.list l).items
  ownership : ∀ l, (s'.list l).ownership = (s.list l).ownership
  rules : s'.rules = s.rules
  builds : s'.builds = s.builds
  pools : s'.pools = s.pools
  documents : s'.documents = s.documents
  assigned : s'.assigned = s.assigned

/-- A statement that every thread can use. -/
inductive Listed (s : Store) : Value → Prop where
  | node {n : Node} (has : s.HasNode n) (shares : ∀ q ∈ n.parts, s.Shares (s.part n q)) :
      Listed s n.toValue
  | fixed {o : Object} (h : o.isFrozen) : Listed s (.object o)

namespace Alike

variable {s s' : Store}

theorem of_lists (h : s'.lists = s.lists) (rules : s'.rules = s.rules)
    (builds : s'.builds = s.builds) (pools : s'.pools = s.pools)
    (documents : s'.documents = s.documents) (assigned : s'.assigned = s.assigned) :
    s.Alike s' where
  size := congrArg Table.size h
  items l := by rw [Store.list, Store.list, h]
  ownership l := by rw [Store.list, Store.list, h]
  rules := rules
  builds := builds
  pools := pools
  documents := documents
  assigned := assigned

theorem refl (s : Store) : s.Alike s := of_lists rfl rfl rfl rfl rfl rfl

theorem setGuard (s : Store) (lock : LockId) (g : Guard) : s.Alike (s.setGuard lock g) where
  size := size_setGuard ..
  items _ := items_setGuard ..
  ownership _ := ownership_setGuard ..
  rules := by cases lock <;> rfl
  builds := by cases lock <;> rfl
  pools := by cases lock <;> rfl
  documents := documents_setGuard ..
  assigned := assigned_setGuard ..

theorem hasNode (h : s.Alike s') (n : Node) : s'.HasNode n ↔ s.HasNode n := by
  cases n <;> simp only [HasNode, h.rules, h.builds, h.pools]

theorem part (h : s.Alike s') (n : Node) (q : Part) : s'.part n q = s.part n q := by
  cases n <;> cases q <;>
    simp only [Store.part, Store.rule, Store.build, Store.pool, h.rules, h.builds, h.pools]

theorem shares (h : s.Alike s') (l : ListId) : s'.Shares l ↔ s.Shares l :=
  ⟨fun ⟨known, shared⟩ => ⟨h.size ▸ known, h.ownership l ▸ shared⟩,
    fun ⟨known, shared⟩ => ⟨h.size ▸ known, (h.ownership l).trans shared⟩⟩

theorem listed (h : s.Alike s') {v : Value} (hv : s.Listed v) : s'.Listed v := by
  cases hv with
  | fixed ho => exact .fixed ho
  | node has shares =>
      refine .node ((h.hasNode _).mpr has) fun q hq => ?_
      rw [h.part]
      exact (h.shares _).mpr (shares q hq)

end Alike

end Store

namespace Sharing

open Store

/-! ## What lasts -/

/-- What every call keeps up: the document stays what it is, what it holds can be used by
all threads, and every list belongs to one part of one statement at most. -/
structure Safe (d : DocumentId) (a : Arena) (s : Store) : Prop where
  unassigned : s.assigned = []
  known : d.index < s.documents.size
  arena : (s.document d).arena = a
  shared : a.ownership = .shared
  place : s.Shares a.statements
  listed : ∀ v ∈ (s.list a.statements).items, s.Listed v
  lines : ∀ l, l ≠ a.statements → ∀ v ∈ (s.list l).items, v.isLine
  parts : ∀ n, s.HasNode n → ∀ q ∈ n.parts,
    (s.part n q).index < s.lists.size ∧ s.part n q ≠ a.statements
  apart : ∀ n m, s.HasNode n → s.HasNode m → ∀ q ∈ n.parts, ∀ r ∈ m.parts,
    s.part n q = s.part m r → n = m ∧ q = r

theorem Safe.alike {d : DocumentId} {a : Arena} {s s' : Store} (h : Safe d a s)
    (like : s.Alike s') : Safe d a s' where
  unassigned := like.assigned.trans h.unassigned
  known := by
    rw [like.documents]
    exact h.known
  arena := by
    rw [document, like.documents]
    exact h.arena
  shared := h.shared
  place := (like.shares _).mpr h.place
  listed v hv := by
    rw [like.items] at hv
    exact like.listed (h.listed v hv)
  lines l hl v hv := by
    rw [like.items] at hv
    exact h.lines l hl v hv
  parts n hn q hq := by
    rw [like.part, like.size]
    exact h.parts n ((like.hasNode n).mp hn) q hq
  apart n m hn hm q hq r hr heq := by
    rw [like.part, like.part] at heq
    exact h.apart n m ((like.hasNode n).mp hn) ((like.hasNode m).mp hm) q hq r hr heq

/-- What one can count on whoever takes a step. -/
structure Grows (s s' : Store) : Prop where
  lists : s.lists.size ≤ s'.lists.size
  items : ∀ l, (s.list l).items <+: (s'.list l).items
  ownership : ∀ l, l.index < s.lists.size → (s'.list l).ownership = (s.list l).ownership
  nodes : ∀ n, s.HasNode n → s'.HasNode n
  listed : ∀ v, s.Listed v → s'.Listed v

namespace Grows

variable {s s' s'' : Store}

theorem alike (like : s.Alike s') : Grows s s' where
  lists := Nat.le_of_eq like.size.symm
  items l := by simp only [like.items, List.prefix_rfl]
  ownership l _ := like.ownership l
  nodes n := (like.hasNode n).mpr
  listed _ := like.listed

theorem trans (h : Grows s s') (h' : Grows s' s'') : Grows s s'' where
  lists := Nat.le_trans h.lists h'.lists
  items l := (h.items l).trans (h'.items l)
  ownership l hl :=
    (h'.ownership l (Nat.lt_of_lt_of_le hl h.lists)).trans (h.ownership l hl)
  nodes n hn := h'.nodes n (h.nodes n hn)
  listed v hv := h'.listed v (h.listed v hv)

theorem shares (h : Grows s s') {l : ListId} (hl : s.Shares l) : s'.Shares l :=
  ⟨Nat.lt_of_lt_of_le hl.known h.lists, (h.ownership l hl.known).trans hl.shared⟩

theorem offers (h : Grows s s') {others : List ListId} {v : Value} (hv : s.Offers others v) :
    s'.Offers others v := by
  unfold Offers at hv ⊢
  split <;> first | exact hv.imp_left h.shares | exact h.shares hv | trivial

end Grows

/-- What a call can count on while others take steps: what it has to itself stays. -/
structure Rely (k : Stake) (trail : List (Store × Store)) (s s' : Store) : Prop where
  grows : Grows s s'
  items : ∀ l, k.HasList trail l → (s'.list l).items = (s.list l).items
  parts : ∀ n, k.HasNode trail n → ∀ q ∈ n.parts, s'.part n q = s.part n q
  others : ∀ n, s'.HasNode n → ∀ q ∈ n.parts, k.HasList trail (s'.part n q) →
    s.HasNode n ∧ s'.part n q = s.part n q

namespace Rely

variable {k : Stake} {trail : List (Store × Store)} {s s' s'' : Store}

theorem alike (like : s.Alike s') : Rely k trail s s' where
  grows := .alike like
  items l _ := like.items l
  parts n _ q _ := like.part n q
  others n hn q _ _ := ⟨(like.hasNode n).mp hn, like.part n q⟩

theorem trans (h : Rely k trail s s') (h' : Rely k trail s' s'') : Rely k trail s s'' where
  grows := h.grows.trans h'.grows
  items l hl := (h'.items l hl).trans (h.items l hl)
  parts n hn q hq := (h'.parts n hn q hq).trans (h.parts n hn q hq)
  others n hn q hq hl := by
    obtain ⟨hn', heq'⟩ := h'.others n hn q hq hl
    rw [heq'] at hl ⊢
    exact h.others n hn' q hq hl

end Rely

/-! ## Acts -/

/-- No statement has the list. -/
def Loose (s : Store) (l : ListId) : Prop :=
  ∀ n, s.HasNode n → ∀ q ∈ n.parts, s.part n q ≠ l

/-- A store with one statement more, that has some lists which no statement had. -/
structure Making (a : Arena) (n : Node) (s s' : Store) : Prop where
  adds : s.Adds s'
  lists : s'.lists = s.lists
  new : ¬ s.HasNode n
  has : ∀ m, s'.HasNode m ↔ s.HasNode m ∨ m = n
  parts : ∀ q ∈ n.parts, (s'.part n q).index < s.lists.size ∧ s'.part n q ≠ a.statements ∧
    Loose s (s'.part n q)
  apart : ∀ q ∈ n.parts, ∀ r ∈ n.parts, s'.part n q = s'.part n r → q = r

/-- What a call may do in one step, with what it has done before. -/
inductive Act (a : Arena) (k : Stake) (trail : List (Store × Store)) (s : Store) :
    Store → Prop where
  | quiet {s' : Store} (like : s.Alike s') (same : s'.lists = s.lists) : Act a k trail s s'
  | list (ownership : Ownership) (blocking : Bool) (items : List Value)
      (lines : ∀ v ∈ items, v.isLine) :
      Act a k trail s (s.insertList (.make ownership blocking items)).2
  | append {l : ListId} (own : k.HasList trail l) (ne : l ≠ a.statements) (items : List Value)
      (lines : ∀ v ∈ items, v.isLine) : Act a k trail s (s.modifyList l (·.append items))
  | insert {v : Value} (inserts : k.inserts) (first : added a.statements trail = [])
      (listed : s.Listed v) : Act a k trail s (s.modifyList a.statements (·.append [v]))
  | node {n : Node} {s' : Store} (making : Making a n s s')
      (own : ∀ q ∈ n.parts, k.HasList trail (s'.part n q)) : Act a k trail s s'
  | part {n : Node} {q : Part} {l : ListId} (own : k.HasNode trail n) (has : s.HasNode n)
      (hq : q ∈ n.parts) (made : k.HasList trail l) (loose : Loose s l) (shares : s.Shares l)
      (ne : l ≠ a.statements) (same : (s.list l).items = (s.list (s.part n q)).items) :
      Act a k trail s (s.setPart n q l)

end Sharing

end NinjaFile
