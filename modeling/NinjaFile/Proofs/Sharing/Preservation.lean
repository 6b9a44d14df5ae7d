import NinjaFile.Proofs.Sharing.Acts

/-!
# What acts preserve

Every act keeps a shared document safe, lets the store grow, and leaves alone what other
calls have to themselves.
-/

namespace NinjaFile

namespace Store

section

variable {s s' : Store}

/-! ## What can be used by all threads -/

theorem Adds.shares (h : s.Adds s') {l : ListId} (hl : s.Shares l) : s'.Shares l :=
  ⟨Nat.lt_of_lt_of_le hl.known h.lists, by rw [h.list l hl.known]; exact hl.shared⟩

theorem Adds.listed (h : s.Adds s') {v : Value} (hv : s.Listed v) : s'.Listed v := by
  cases hv with
  | fixed ho => exact .fixed ho
  | node has shares =>
      refine .node (h.hasNode has) fun q hq => ?_
      rw [h.part has]
      exact h.shares (shares q hq)

theorem shares_append (l : ListId) (items : List Value) {j : ListId} (hj : s.Shares j) :
    (s.modifyList l (·.append items)).Shares j :=
  ⟨by rw [size_modifyList]; exact hj.known, by rw [ownership_append]; exact hj.shared⟩

theorem listed_append (l : ListId) (items : List Value) {v : Value} (hv : s.Listed v) :
    (s.modifyList l (·.append items)).Listed v := by
  cases hv with
  | fixed ho => exact .fixed ho
  | node has shares =>
      refine .node ((hasNode_modifyList ..).mpr has) fun q hq => ?_
      rw [part_modifyList]
      exact shares_append l items (shares q hq)

theorem shares_setPart (n : Node) (q : Part) (l : ListId) {j : ListId} (hj : s.Shares j) :
    (s.setPart n q l).Shares j :=
  ⟨by rw [lists_setPart]; exact hj.known, by rw [list_setPart]; exact hj.shared⟩

theorem listed_setPart {n : Node} {q : Part} {l : ListId} (hn : s.HasNode n) (hq : q ∈ n.parts)
    (hl : s.Shares l) {v : Value} (hv : s.Listed v) : (s.setPart n q l).Listed v := by
  cases hv with
  | fixed ho => exact .fixed ho
  | @node m has shares =>
      refine .node ((hasNode_setPart ..).mpr has) fun r hr => shares_setPart n q l ?_
      rcases part_setPart_or hn hq hr l with ⟨-, -, heq⟩ | heq <;> rw [heq]
      · exact hl
      · exact shares r hr

end

end Store

namespace Sharing

open Store

variable {d : DocumentId} {a : Arena} {k : Stake} {trail : List (Store × Store)} {s s' : Store}

/-! ## Growth -/

namespace Grows

theorem adds (h : s.Adds s') : Grows s s' where
  lists := h.lists
  items := h.extends_.items
  ownership l hl := by rw [h.list l hl]
  nodes _ := h.hasNode
  listed _ := h.listed

theorem append (s : Store) (l : ListId) (items : List Value) :
    Grows s (s.modifyList l (·.append items)) where
  lists := Nat.le_of_eq (size_modifyList ..).symm
  items j := by
    rw [items_append_eq]
    split
    · exact List.prefix_append _ _
    · exact List.prefix_rfl
  ownership j _ := ownership_append ..
  nodes n := (hasNode_modifyList ..).mpr
  listed _ := listed_append l items

end Grows

theorem Act.grows (act : Act a k trail s s') : Grows s s' := by
  cases act with
  | quiet like _ => exact .alike like
  | list ownership blocking items _ => exact .adds (adds_insertList _ _)
  | append _ _ items _ => exact .append s _ items
  | insert _ _ _ => exact .append s _ _
  | node making _ => exact .adds making.adds
  | @part n q l own has hq made loose shares ne same =>
      exact ⟨by simp, fun j => by simp, fun j _ => by simp,
        fun m => (hasNode_setPart ..).mpr, fun _ => listed_setPart has hq shares⟩

/-! ## Safety -/

private theorem Safe.append (h : Safe d a s) (l : ListId) (items : List Value)
    (listed : l = a.statements → ∀ v ∈ items, s.Listed v)
    (lines : l ≠ a.statements → ∀ v ∈ items, v.isLine) :
    Safe d a (s.modifyList l (·.append items)) where
  unassigned := h.unassigned
  known := h.known
  arena := h.arena
  shared := h.shared
  place := shares_append l items h.place
  listed v hv := by
    refine listed_append l items ?_
    rw [items_append_eq] at hv
    split at hv
    · next hl =>
        rcases List.mem_append.mp hv with hold | hnew
        · exact h.listed v hold
        · exact listed hl.1 v hnew
    · exact h.listed v hv
  lines j hj v hv := by
    rw [items_append_eq] at hv
    split at hv
    · next hl =>
        rcases List.mem_append.mp hv with hold | hnew
        · exact h.lines j hj v hold
        · exact lines (hl.1 ▸ hj) v hnew
    · exact h.lines j hj v hv
  parts n hn q hq := by
    rw [hasNode_modifyList] at hn
    rw [part_modifyList, size_modifyList]
    exact h.parts n hn q hq
  apart n m hn hm q hq r hr heq := by
    rw [hasNode_modifyList] at hn hm
    rw [part_modifyList, part_modifyList] at heq
    exact h.apart n m hn hm q hq r hr heq

private theorem Safe.list (h : Safe d a s) (ownership : Ownership) (blocking : Bool)
    {items : List Value} (lines : ∀ v ∈ items, v.isLine) :
    Safe d a (s.insertList (.make ownership blocking items)).2 := by
  have hadds := adds_insertList s (.make ownership blocking items)
  refine ⟨h.unassigned, h.known, h.arena, h.shared, hadds.shares h.place, ?_, ?_, ?_, ?_⟩
  · intro v hv
    rw [hadds.list _ h.place.known] at hv
    exact hadds.listed (h.listed v hv)
  · intro l hl v hv
    rw [list_insertList] at hv
    split at hv
    · exact lines v hv
    · exact h.lines l hl v hv
  · intro n hn q hq
    rw [hasNode_insertList] at hn
    rw [part_insertList]
    obtain ⟨known, ne⟩ := h.parts n hn q hq
    exact ⟨Nat.lt_of_lt_of_le known hadds.lists, ne⟩
  · intro n m hn hm q hq r hr heq
    rw [hasNode_insertList] at hn hm
    rw [part_insertList, part_insertList] at heq
    exact h.apart n m hn hm q hq r hr heq

private theorem Safe.node (h : Safe d a s) {n : Node} (making : Making a n s s') :
    Safe d a s' := by
  have hadds := making.adds
  have list (l : ListId) : s'.list l = s.list l := by
    rw [Store.list, Store.list, making.lists]
  refine ⟨hadds.assigned.trans h.unassigned, ?_, ?_, h.shared, hadds.shares h.place, ?_, ?_, ?_, ?_⟩
  · rw [hadds.documents]
    exact h.known
  · rw [document, hadds.documents]
    exact h.arena
  · intro v hv
    rw [list] at hv
    exact hadds.listed (h.listed v hv)
  · intro l hl v hv
    rw [list] at hv
    exact h.lines l hl v hv
  · intro m hm q hq
    rw [making.lists]
    rcases (making.has m).mp hm with hold | rfl
    · rw [hadds.part hold]
      exact h.parts m hold q hq
    · exact ⟨(making.parts q hq).1, (making.parts q hq).2.1⟩
  · intro m m' hm hm' q hq r hr heq
    rcases (making.has m).mp hm with hold | rfl <;> rcases (making.has m').mp hm' with hold' | rfl
    · rw [hadds.part hold, hadds.part hold'] at heq
      exact h.apart m m' hold hold' q hq r hr heq
    · rw [hadds.part hold] at heq
      exact absurd heq ((making.parts r hr).2.2 m hold q hq)
    · rw [hadds.part hold'] at heq
      exact absurd heq.symm ((making.parts q hq).2.2 m' hold' r hr)
    · exact ⟨rfl, making.apart q hq r hr heq⟩

private theorem Safe.part (h : Safe d a s) {n : Node} {q : Part} {l : ListId} (hn : s.HasNode n)
    (hq : q ∈ n.parts) (loose : Loose s l) (shares : s.Shares l) (ne : l ≠ a.statements) :
    Safe d a (s.setPart n q l) := by
  refine ⟨?_, ?_, ?_, h.shared, shares_setPart n q l h.place, ?_, ?_, ?_, ?_⟩
  · exact (assigned_setPart s n q l).trans h.unassigned
  · rw [documents_setPart]
    exact h.known
  · rw [document, documents_setPart]
    exact h.arena
  · intro v hv
    rw [list_setPart] at hv
    exact listed_setPart hn hq shares (h.listed v hv)
  · intro j hj v hv
    rw [list_setPart] at hv
    exact h.lines j hj v hv
  · intro m hm r hr
    rw [hasNode_setPart] at hm
    rw [lists_setPart]
    rcases part_setPart_or hn hq hr l with ⟨-, -, heq⟩ | heq <;> rw [heq]
    · exact ⟨shares.known, ne⟩
    · exact h.parts m hm r hr
  · intro m m' hm hm' r hr r' hr' heq
    rw [hasNode_setPart] at hm hm'
    rcases part_setPart_or hn hq hr l with ⟨rfl, rfl, hp⟩ | hp <;>
      rcases part_setPart_or hn hq hr' l with ⟨rfl, rfl, hp'⟩ | hp'
    · exact ⟨rfl, rfl⟩
    · rw [hp, hp'] at heq
      exact absurd heq.symm (loose m' hm' r' hr')
    · rw [hp, hp'] at heq
      exact absurd heq (loose m hm r hr)
    · rw [hp, hp'] at heq
      exact h.apart m m' hm hm' r hr r' hr' heq

theorem Act.safe (h : Safe d a s) (act : Act a k trail s s') : Safe d a s' := by
  cases act with
  | quiet like _ => exact h.alike like
  | list ownership blocking items lines => exact h.list ownership blocking lines
  | append _ ne items lines =>
      exact h.append _ items (fun heq => absurd heq ne) fun _ => lines
  | insert _ _ listed =>
      exact h.append _ _ (fun _ v hv => List.mem_singleton.mp hv ▸ listed) fun hne => absurd rfl hne
  | node making _ => exact h.node making
  | part _ has hq _ loose shares ne _ => exact h.part has hq loose shares ne

end Sharing

end NinjaFile
