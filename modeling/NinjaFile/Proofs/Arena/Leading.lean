import NinjaFile.Handle
import NinjaFile.Proofs.Program.Alone
import NinjaFile.Proofs.Store.Effect

/-!
# Where handles lead

A handle names an arena and an index.  It goes on leading to the item that is there while
nothing but new things come up, since an item keeps its index.
-/

namespace NinjaFile

open Program Store

/-- A handle leads to a value: to an item of its arena that it admits, and nothing was
put in the place of its arena and its index. -/
structure Handle.Leads (h : Handle) (v : Value) (s : Store) : Prop where
  made : h.serial < s.serial
  bare : ∀ name, s.assigned? (.serial h.serial) name = none
  item : ∃ k : Nat, h.index = k ∧ (s.list h.arena.statements).items[k]? = some v
  admits : h.expected.admits v

namespace Handle.Leads

variable {h : Handle} {v : Value} {s s' : Store}

theorem mono (hl : h.Leads v s) (hext : s.Extends s') : h.Leads v s' where
  made := Nat.lt_of_lt_of_le hl.made hext.serial
  bare name := (hext.attributes _ name hl.made).trans (hl.bare name)
  item := by
    obtain ⟨k, hk, hitem⟩ := hl.item
    exact ⟨k, hk, hext.item hitem⟩
  admits := hl.admits

theorem statements_eq (hl : h.Leads v s) :
    ((Value.object (.handle h)).stored? s "statements").getD (.object (.arena h.arena)) =
      .object (.arena h.arena) := by
  simp [Value.stored?, Value.identity?, Object.identity, hl.bare, Value.field?, Object.field?]

theorem index_eq (hl : h.Leads v s) :
    ((Value.object (.handle h)).stored? s "index").getD (.int h.index) = .int h.index := by
  simp [Value.stored?, Value.identity?, Object.identity, hl.bare, Value.field?, Object.field?]

theorem listItem_eq {items : List Value} {k : Nat} (hk : items[k]? = some v) :
    Value.listItem items (.int k) = .ok v := by
  have hlt := (List.getElem?_eq_some_iff.mp hk).1
  have place : Value.place? items.length k = some k := by
    simp [Value.place?, hlt]
  simp [Value.listItem, Value.itemIn, Value.int?, Value.whole?, Whole.value, place, hk]

theorem alone_statement (hl : h.Leads v s) (hopen : s.Open h.arena.statements) :
    h.statement.alone s = (.ok v, s) := by
  obtain ⟨k, hindex, hitem⟩ := hl.item
  rw [Handle.statement, Handle.statements, Action.alone_read_bind, hl.statements_eq, Handle.place,
    Action.alone_read_bind, hl.index_eq]
  have looked : (h.arena.statements.item (.int h.index)).alone s = (.ok v, s) := by
    rw [ListId.alone_item hopen, hindex, listItem_eq hitem]
  refine (Action.alone_bind_ok looked _).trans ?_
  rw [if_pos hl.admits]
  rfl

end Handle.Leads

end NinjaFile
