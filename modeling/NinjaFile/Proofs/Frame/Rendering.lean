import NinjaFile.Proofs.Document.Rendered
import NinjaFile.Proofs.Document.Written
import NinjaFile.Proofs.Frame.Homes

/-!
# What a document is rendered to, slot by slot

The text of a document has a piece for each slot: the lines that part a statement from the
one that was written before, and the block of the statement.  What parts the blocks depends
on nothing that is in the lists of statements.
-/

namespace NinjaFile

open Action Program Store

namespace Layout

/-- For each statement the lines in front of it and its own. -/
def pieces (mark : String) (last : Option Kind) : List Statement → List (List String × List String)
  | [] => []
  | st :: rest =>
      if st.isHidden then ([], []) :: pieces mark last rest
      else (separator last st.kind, lines mark st) :: pieces mark (some st.kind) rest

/-- The text of pieces that follow each other. -/
def assemble (ps : List (List String × List String)) : String :=
  joinLines (ps.flatMap fun p => p.1 ++ p.2)

theorem linesFrom_eq_pieces (mark : String) (last : Option Kind) (xs : List Statement) :
    linesFrom mark last xs = (pieces mark last xs).flatMap fun p => p.1 ++ p.2 := by
  induction xs generalizing last with
  | nil => rfl
  | cons st rest ih =>
      unfold linesFrom pieces
      split <;> simp [ih]

theorem file_eq_assemble (mark : String) (xs : List Statement) :
    file mark xs = assemble (pieces mark none xs) := by
  rw [file, linesFrom_eq_pieces, assemble]

/-- Statements that are of one kind and both written, or both not. -/
def SameOutline (x y : Statement) : Prop := y.kind = x.kind ∧ y.isHidden = x.isHidden

/-- The pieces of statements of the same kinds differ only where the statements do, and there
only in their blocks. -/
theorem pieces_congr {mark : String} {xs ys : List Statement} (h : List.Forall₂ SameOutline xs ys)
    (last : Option Kind) (i : Nat) :
    (pieces mark last ys)[i]?.map Prod.fst = (pieces mark last xs)[i]?.map Prod.fst ∧
      (ys[i]? = xs[i]? → (pieces mark last ys)[i]? = (pieces mark last xs)[i]?) := by
  induction h generalizing last i with
  | nil => exact ⟨rfl, fun _ => rfl⟩
  | @cons x y xs ys first _ ih =>
      obtain ⟨kind, hidden⟩ := first
      unfold pieces
      rw [hidden, kind]
      cases i with
      | zero =>
          split
          · exact ⟨rfl, fun _ => rfl⟩
          · refine ⟨rfl, fun same => ?_⟩
            simp only [List.getElem?_cons_zero, Option.some.injEq] at same ⊢
            rw [same]
      | succ i => split <;> exact ih _ i

end Layout

namespace Store

variable {s s' : Store} {v : Value} {x y : Statement} {d : DocumentId}

theorem lines_unique {l : ListId} {block block' : List BlockLine} (h : s.Lines l block)
    (h' : s.Lines l block') : block = block' :=
  List.map_injective_iff.mpr (fun _ _ => Option.some.inj) (h.symm.trans h')

theorem paths_unique {l : ListId} {paths paths' : List String} (h : s.Paths l paths)
    (h' : s.Paths l paths') : paths = paths' :=
  List.map_injective_iff.mpr (fun _ _ => Value.text.inj) (h.symm.trans h')

theorem NodeReads.unique {n : Node} (h : s.NodeReads n x) (h' : s.NodeReads n y) : x = y := by
  cases n <;> cases x <;> try exact h.elim
  all_goals cases y <;> try exact h'.elim
  · obtain ⟨named, lines⟩ := h
    obtain ⟨named', lines'⟩ := h'
    cases named.symm.trans named'
    rw [lines_unique lines lines']
  · next edge edge' =>
      obtain ⟨named, paths, lines⟩ := h
      obtain ⟨named', paths', lines'⟩ := h'
      have name : edge.ruleName = edge'.ruleName := congrArg Prod.fst (named.symm.trans named')
      have slots : edge.paths = edge'.paths :=
        Slots.ext_get fun slot => paths_unique (paths slot) (paths' slot)
      have block : edge.block = edge'.block := lines_unique lines lines'
      cases edge
      cases edge'
      simp_all
  · obtain ⟨named, lines⟩ := h
    obtain ⟨named', lines'⟩ := h'
    cases named.symm.trans named'
    rw [lines_unique lines lines']

theorem Reads.unique (h : s.Reads v x) (h' : s.Reads v y) : x = y := by
  obtain ⟨o, rfl, kind⟩ := h.kind_eq
  cases o with
  | rule r => exact NodeReads.unique h h'
  | build b => exact NodeReads.unique h h'
  | pool p => exact NodeReads.unique h h'
  | comment | binding | defaults | subninja | inclusion => exact Eq.trans h (Eq.symm h')
  | _ => cases kind

theorem Reads.sameOutline (h : s.Reads v x) (h' : s'.Reads v y)
    (fields : ∀ n, v = n.toValue → s'.fields n = s.fields n) : Layout.SameOutline x y := by
  obtain ⟨o, rfl, kind⟩ := h.kind_eq
  obtain ⟨_, heq, kind'⟩ := h'.kind_eq
  cases heq
  refine ⟨Option.some.inj (kind'.symm.trans kind), ?_⟩
  cases o with
  | pool p =>
      cases x <;> try exact h.elim
      cases y <;> try exact h'.elim
      have same := fields (.pool p) rfl
      rw [h.1, h'.1] at same
      exact congrArg Prod.snd same
  | rule | build =>
      cases x <;> try exact h.elim
      cases y <;> first | exact h'.elim | rfl
  | comment | binding | defaults | subninja | inclusion =>
      obtain rfl : x = _ := h
      obtain rfl : y = _ := h'
      rfl
  | _ => cases kind

/-- A change to the lists of one value shows in the slots of this value only, and there in the
blocks only. -/
theorem pieces_of_reads {vs : List Value} {xs ys : List Statement} {mark : String}
    {changed : Option Value} (hx : List.Forall₂ s.Reads vs xs) (hy : List.Forall₂ s'.Reads vs ys)
    (fields : ∀ n, s'.fields n = s.fields n)
    (items : ∀ n : Node, n.toValue ∈ vs → some n.toValue ≠ changed → ∀ q ∈ n.parts,
      (s'.list (s'.part n q)).items = (s.list (s.part n q)).items) (i : Nat) :
    (Layout.pieces mark none ys)[i]?.map Prod.fst = (Layout.pieces mark none xs)[i]?.map Prod.fst ∧
      (vs[i]? ≠ changed →
        (Layout.pieces mark none ys)[i]? = (Layout.pieces mark none xs)[i]?) := by
  -- The outlines are the same in all slots, what is said only in those of other values.
  have alike : List.Forall₂ Layout.SameOutline xs ys ∧ (vs[i]? ≠ changed → ys[i]? = xs[i]?) := by
    induction hx generalizing ys i with
    | nil =>
        cases hy
        exact ⟨.nil, fun _ => rfl⟩
    | cons first others ih =>
        cases hy with
        | cons first' others' =>
            have items' := fun n hn => items n (List.mem_cons_of_mem _ hn)
            refine ⟨.cons (first.sameOutline first' fun n _ => fields n) (ih others' items' 0).1, ?_⟩
            cases i with
            | succ i => exact (ih others' items' i).2
            | zero =>
                intro hne
                have kept : s'.Reads _ _ := first.congr fun n hn =>
                  ⟨fields n, items n (hn ▸ List.mem_cons_self) (hn ▸ hne)⟩
                exact congrArg some (first'.unique kept)
  obtain ⟨parted, same⟩ := Layout.pieces_congr alike.1 none i
  exact ⟨parted, fun hne => same (alike.2 hne)⟩

/-! ## Rendering -/

/-- Nobody is in a list. -/
def AtRest (s : Store) : Prop := ∀ l : ListId, l.index < s.lists.size → s.Open l

namespace Housed

variable (h : s.Housed)

include h

theorem legible (rest : s.AtRest) (has : s.Suits (.statements d) v) (reads : s.Reads v x) :
    s.Legible v x where
  reads := reads
  bare i _ := h.bare i
  kind := h.bare _
  lists n hn q hq := by
    obtain ⟨o, rfl, -, nodes⟩ := has
    exact rest _ (h.known (.part n q) ⟨nodes n hn, hq⟩)
  lines _ _ _ _ i _ := h.bare i

/-- When nobody is in a list, the rendering is what the document says. -/
theorem alone_render (hd : s.HasDocument d) (rest : s.AtRest) {xs : List Statement}
    (reads : List.Forall₂ s.Reads (s.held (.statements d)) xs) :
    d.render.alone s =
      (.ok (Layout.assemble (Layout.pieces Layout.defaultIndent none xs)), s) := by
  obtain ⟨p, hp⟩ : ∃ p : Printer, d.render = p.documentText d := ⟨.deep 999, rfl⟩
  have legible : List.Forall₂ s.Legible (s.held (.statements d)) xs := by
    have each := h.suits (.statements d) hd
    generalize s.held (.statements d) = vs at reads each
    induction reads with
    | nil => exact .nil
    | cons first _ ih =>
        obtain ⟨suits, others⟩ := List.forall_mem_cons.mp each
        exact .cons (h.legible rest suits first) (ih others)
  have place : ((Value.object (.document d)).member "statements").alone s =
      (.ok (.object (.arena (s.document d).arena)), s) :=
    alone_storedMember rfl (h.bare _) rfl
  have items : (Value.object (.arena (s.document d).arena)).snapshot.alone s =
      (.ok (s.held (.statements d)), s) :=
    ListId.alone_snapshot (rest _ (h.known (.statements d) hd))
  rw [hp, Printer.documentText, alone_bind_ok place, alone_bind_ok items,
    alone_bind_ok (p.alone_statements_shown legible), p.alone_fileText, ← Layout.file_eq_assemble]
  rw [Layout.file, Layout.linesFrom_map_shown, Layout.file]

end Housed

end Store

end NinjaFile
