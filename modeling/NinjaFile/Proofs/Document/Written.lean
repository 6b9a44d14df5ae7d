import NinjaFile.Proofs.Document.Rendered
import NinjaFile.Proofs.Store.Civil

/-!
# Writing documents

A document in which nothing has been assigned is rendered to the text of its statements.
Writing it to a file changes that file and no other, or nothing if it cannot be opened.
-/

namespace NinjaFile

open Program Store Action

variable {given : Store} {d : DocumentId} {a : Arena} {vs : List Value} {file : List Statement}
  {s : Store}

theorem Store.bare_of_assigned_nil (h : s.assigned = []) (i : Identity) : s.Bare i := by
  intro name
  rw [assigned?, h]
  rfl

namespace Building

theorem legible (h : Building given d a vs file s) (unassigned : given.assigned = []) :
    List.Forall₂ s.Legible vs file := by
  have bare := bare_of_assigned_nil (h.beside.assigned.trans unassigned)
  have all : ∀ v ∈ vs, ∀ st, s.Reads v st → s.Legible v st := by
    intro v hv st reads
    refine ⟨reads, fun i _ => bare i, bare _, fun n hn q hq => ?_, fun _ _ _ _ i _ => bare i⟩
    exact (h.nodes n (Value.eq_toValue hn ▸ hv)).opens q hq
  have reads := h.reads
  clear h
  induction reads with
  | nil => exact .nil
  | cons first others ih =>
      refine .cons (all _ List.mem_cons_self _ first) (ih fun v hv => ?_)
      exact all v (List.mem_cons_of_mem _ hv)

theorem alone_render (h : Building given d a vs file s) (unassigned : given.assigned = [])
    (visible : ∀ st ∈ file, st.isHidden = false) :
    d.render.alone s = (.ok (Layout.file Layout.defaultIndent file), s) := by
  obtain ⟨p, hp⟩ : ∃ p : Printer, d.render = p.documentText d := ⟨.deep 999, rfl⟩
  have place : ((Value.object (.document d)).member "statements").alone s =
      (.ok (.object (.arena a)), s) := h.alone_statements
  have items : (Value.object (.arena a)).snapshot.alone s = (.ok vs, s) := by
    rw [← h.items]
    exact ListId.alone_snapshot h.opens
  rw [hp, Printer.documentText, alone_bind_ok place, alone_bind_ok items,
    alone_bind_ok (p.alone_statements (h.legible unassigned) visible)]
  exact p.alone_fileText _ _

end Building

end NinjaFile
