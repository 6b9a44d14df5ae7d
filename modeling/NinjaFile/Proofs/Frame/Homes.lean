import NinjaFile.Proofs.Document.Content
import NinjaFile.Proofs.Twin.Places

/-!
# Lists and their homes

Every list is the list of one place at most, of one part of one statement or of one
document, and holds what this place is for.  So every statement of a document can be read,
and what is added to a list shows in one place only.
-/

namespace NinjaFile.Store

variable {s s' : Store} {n : Node} {d : DocumentId}

/-- A part holds bindings or the paths of a slot, a document holds statements that have been
made. -/
def Suits (s : Store) : Place → Value → Prop
  | .part _ q, v => q.admits v
  | .statements _, v =>
      ∃ o : Object, v = .object o ∧ o.kind?.isSome ∧ ∀ n, o.node? = some n → s.HasNode n

structure Housed (s : Store) : Prop where
  unassigned : s.assigned = []
  known : ∀ x, s.HasPlace x → (s.spot x).index < s.lists.size
  apart : ∀ x y, s.HasPlace x → s.HasPlace y → s.spot x = s.spot y → x = y
  suits : ∀ x, s.HasPlace x → ∀ v ∈ s.held x, s.Suits x v

theorem Suits.mono (nodes : ∀ n, s.HasNode n → s'.HasNode n) {x : Place} {v : Value}
    (h : s.Suits x v) : s'.Suits x v := by
  cases x with
  | part n q => exact h
  | statements d =>
      obtain ⟨o, rfl, kind, has⟩ := h
      exact ⟨o, rfl, kind, fun n hn => nodes n (has n hn)⟩

/-! ## What the lists hold -/

theorem exists_lines {items : List Value} (h : ∀ v ∈ items, Part.bindings.admits v) :
    ∃ block : List BlockLine, items.map Value.line? = block.map some := by
  induction items with
  | nil => exact ⟨[], rfl⟩
  | cons v rest ih =>
      obtain ⟨hv, hrest⟩ := List.forall_mem_cons.mp h
      obtain ⟨block, hblock⟩ := ih hrest
      cases v with
      | object o =>
          cases o with
          | binding serial b => exact ⟨.binding b :: block, by simp [Value.line?, hblock]⟩
          | _ => cases hv
      | _ => cases hv

theorem exists_paths {slot : Slot} {items : List Value}
    (h : ∀ v ∈ items, (Part.paths slot).admits v) :
    ∃ paths : List String, items = paths.map .text := by
  induction items with
  | nil => exact ⟨[], rfl⟩
  | cons v rest ih =>
      obtain ⟨hv, hrest⟩ := List.forall_mem_cons.mp h
      obtain ⟨paths, rfl⟩ := ih hrest
      cases v with
      | text text => exact ⟨text :: paths, rfl⟩
      | _ => cases hv

namespace Housed

variable (h : s.Housed)

include h

theorem bare (i : Identity) : s.Bare i := fun name => by
  rw [assigned?, h.unassigned]
  rfl

theorem partValue (n : Node) (q : Part) : s.partValue n q = .object (.list (s.part n q)) := by
  rw [Store.partValue, h.bare]
  rfl

theorem nodeReads (hn : s.HasNode n) : ∃ st, s.NodeReads n st := by
  have admits {q : Part} (hq : q ∈ n.parts) : ∀ v ∈ (s.list (s.part n q)).items, q.admits v :=
    h.suits (.part n q) ⟨hn, hq⟩
  obtain ⟨block, lines⟩ := exists_lines (admits (bindings_mem_parts n))
  cases n with
  | rule r => exact ⟨.rule (s.rule r).name block, rfl, lines⟩
  | pool p => exact ⟨.pool (s.pool p).name block (s.pool p).builtIn, rfl, lines⟩
  | build b =>
      choose paths hpaths using fun slot => exists_paths (admits (paths_mem_parts b slot))
      refine ⟨.build ⟨(s.build b).ruleName, .ofFn paths, block⟩, rfl, fun slot => ?_, lines⟩
      rw [Paths, Slots.get_ofFn]
      exact hpaths slot

theorem reads {v : Value} (hv : s.Suits (.statements d) v) : ∃ st, s.Reads v st := by
  obtain ⟨o, rfl, kind, has⟩ := hv
  cases o with
  | rule r => exact h.nodeReads (has _ rfl)
  | build b => exact h.nodeReads (has _ rfl)
  | pool p => exact h.nodeReads (has _ rfl)
  | comment | binding | defaults | subninja | inclusion => exact ⟨_, rfl⟩
  | _ => cases kind

theorem documentReads (hd : s.HasDocument d) :
    ∃ xs, List.Forall₂ s.Reads (s.held (.statements d)) xs := by
  have each (vs : List Value) (hvs : ∀ v ∈ vs, s.Suits (.statements d) v) :
      ∃ xs, List.Forall₂ s.Reads vs xs := by
    induction vs with
    | nil => exact ⟨[], .nil⟩
    | cons v rest ih =>
        obtain ⟨hv, hrest⟩ := List.forall_mem_cons.mp hvs
        obtain ⟨st, hst⟩ := h.reads hv
        obtain ⟨xs, hxs⟩ := ih hrest
        exact ⟨st :: xs, .cons hst hxs⟩
  exact each _ (h.suits (.statements d) hd)

end Housed

end NinjaFile.Store
