import NinjaFile.Proofs.Twin.Places

/-!
# Twins

Two stores that say the same, although their documents may have different ownerships and
their places different lists.  What is done to both of them in the same way, or to one of
them without any effect on what it says, leaves them twins.
-/

namespace NinjaFile

open Twin

namespace Store

/-- What values of two stores may refer to.  Arenas go together if they are those of the
same document. -/
def scope (s s' : Store) : Scope where
  arenas a a' := ∃ d, s.HasDocument d ∧ a = (s.document d).arena ∧ a' = (s'.document d).arena
  nodes := s.HasNode
  documents := s.HasDocument
  sources i := i.index < s.sources.size

structure LikeSource (c : Scope) (x y : Source) : Prop where
  items : LikeAll c x.items y.items
  state : y.state = x.state
  raises : y.raises = x.raises

/-- Settings that differ at most in whether several threads may use a document. -/
inductive LikeSettings : List (String × Value) → List (String × Value) → Prop where
  | intro (flag flag' : Bool) (rest : List (String × Value)) :
      LikeSettings (("thread_safe", .bool flag) :: rest) (("thread_safe", .bool flag') :: rest)

/-- What two documents have in common besides their statements. -/
structure LikeDocument (r r' : DocumentRecord) : Prop where
  settings : LikeSettings r.settings r'.settings
  view : r'.arena.view = r.arena.view
  phony : r'.phony = r.phony
  console : r'.console = r.console

structure Twin (s s' : Store) : Prop where
  left : s.Tidy
  right : s'.Tidy
  serial : s'.serial = s.serial
  files : s'.files = s.files
  loggers : s'.logging.loggers = s.logging.loggers
  nodes : ∀ n, s'.HasNode n ↔ s.HasNode n
  fields : ∀ n, s.HasNode n → s'.fields n = s.fields n
  documents : s'.documents.size = s.documents.size
  document : ∀ d, s.HasDocument d → LikeDocument (s.document d) (s'.document d)
  sources : s'.sources.size = s.sources.size
  source : ∀ i : SourceId, i.index < s.sources.size →
    LikeSource (s.scope s') (s.source i) (s'.source i)
  held : ∀ x, s.HasPlace x → LikeAll (s.scope s') (s.held x) (s'.held x)

theorem LikeSource.mono {c c' : Scope} {x y : Source} (h : LikeSource c x y)
    (within : c.Within c') : LikeSource c' x y := ⟨h.items.mono within, h.state, h.raises⟩

variable {s s' t t' : Store}

theorem scope_congr (documents : t.documents = s.documents) (documents' : t'.documents = s'.documents)
    (nodes : ∀ n, t.HasNode n ↔ s.HasNode n) (sources : t.sources.size = s.sources.size) :
    t.scope t' = s.scope s' := by
  have same (d : DocumentId) : t.document d = s.document d := by
    rw [Store.document, Store.document, documents]
  have same' (d : DocumentId) : t'.document d = s'.document d := by
    rw [Store.document, Store.document, documents']
  have known : t.HasDocument = s.HasDocument := by
    funext d
    rw [HasDocument, HasDocument, documents]
  have nodes : t.HasNode = s.HasNode := funext fun n => propext (nodes n)
  simp only [scope, known, same, same', nodes, sources]

namespace Twin

theorem hasDocument (h : s.Twin s') (d : DocumentId) : s'.HasDocument d ↔ s.HasDocument d := by
  rw [HasDocument, HasDocument, h.documents]

theorem hasPlace (h : s.Twin s') (x : Place) : s'.HasPlace x ↔ s.HasPlace x := by
  cases x with
  | part n q => exact and_congr_left' (h.nodes n)
  | statements d => exact h.hasDocument d

theorem held_part (h : s.Twin s') {n : Node} {q : Part} (hq : s.HasPlace (.part n q)) :
    s'.held (.part n q) = s.held (.part n q) := by
  have proper := h.left.proper n q hq
  have like := h.held _ hq
  generalize s.held (.part n q) = vs at proper like
  generalize s'.held (.part n q) = ws at like
  induction like with
  | nil => rfl
  | @cons v w vs ws first _ ih =>
      rw [Part.eq_of_admits (proper v List.mem_cons_self) first,
        ih fun v hv => proper v (List.mem_cons_of_mem _ hv)]

theorem recast (h : s.Twin s') (hl : s.Recast t) (hr : s'.Recast t') : t.Twin t' := by
  have scope : t.scope t' = s.scope s' :=
    scope_congr hl.documents hr.documents hl.nodes (by rw [hl.sources])
  refine ⟨hl.tidy, hr.tidy, ?_, ?_, ?_, fun n => ?_, fun n hn => ?_, ?_, fun d hd => ?_, ?_,
    fun i hi => ?_, fun x hx => ?_⟩
  · rw [hl.serial, hr.serial, h.serial]
  · rw [hl.files, hr.files, h.files]
  · rw [hl.logging, hr.logging, h.loggers]
  · rw [hl.nodes, hr.nodes, h.nodes]
  · have hn := (hl.nodes n).mp hn
    rw [hl.fields n hn, hr.fields n ((h.nodes n).mpr hn), h.fields n hn]
  · rw [hl.documents, hr.documents, h.documents]
  · rw [HasDocument, hl.documents] at hd
    rw [Store.document, Store.document, hl.documents, hr.documents]
    exact h.document d hd
  · rw [hl.sources, hr.sources, h.sources]
  · rw [hl.sources] at hi
    rw [scope, Store.source, Store.source, hl.sources, hr.sources]
    exact h.source i hi
  · have hx := (hl.hasPlace x).mp hx
    rw [scope, hl.held x hx, hr.held x ((h.hasPlace x).mpr hx)]
    exact h.held x hx

/-! ## The same change on both sides -/

theorem withSerial (h : s.Twin s') (n : Serial) :
    Twin { s with serial := n } { s' with serial := n } :=
  { h with left := { h.left with }, right := { h.right with }, serial := rfl }

theorem withFiles (h : s.Twin s') (files : FileTree) :
    Twin { s with files := files } { s' with files := files } :=
  { h with left := { h.left with }, right := { h.right with }, files := rfl }

theorem withLogging (h : s.Twin s') {logging logging' : Logging}
    (same : logging'.loggers = logging.loggers) :
    Twin { s with logging := logging } { s' with logging := logging' } :=
  { h with left := { h.left with }, right := { h.right with }, loggers := same }

theorem modifySource (h : s.Twin s') {i : SourceId} {f f' : Source → Source}
    (like : LikeSource (s.scope s') (f (s.source i)) (f' (s'.source i))) :
    Twin (s.modifySource i f) (s'.modifySource i f') := by
  have scope : (s.modifySource i f).scope (s'.modifySource i f') = s.scope s' :=
    scope_congr rfl rfl (fun _ => Iff.rfl) (Table.size_modify _ _ _)
  have size : s'.sources.size = s.sources.size := h.sources
  refine { h with
    left := { h.left with }
    right := { h.right with }
    sources := ?_
    source := fun j hj => ?_
    held := scope ▸ h.held }
  · exact (Table.size_modify _ _ _).trans (size.trans (Table.size_modify _ _ _).symm)
  · have hj : j.index < s.sources.size := Nat.lt_of_lt_of_eq hj (Table.size_modify _ _ _)
    rw [scope]
    simp only [Store.source, Store.modifySource, Table.get_modify]
    by_cases heq : i.index = j.index
    · rw [if_pos ⟨heq, hj⟩, if_pos ⟨heq, size ▸ hj⟩, ← heq]
      exact like
    · rw [if_neg fun both => heq both.1, if_neg fun both => heq both.1]
      exact h.source j hj

theorem insertSource (h : s.Twin s') {x y : Source} (like : LikeSource (s.scope s') x y) :
    Twin (s.insertSource x).2 (s'.insertSource y).2 := by
  have size : s'.sources.size = s.sources.size := h.sources
  have within : (s.scope s').Within ((s.insertSource x).2.scope (s'.insertSource y).2) :=
    ⟨fun _ _ => id, fun _ => id, fun _ => id,
      fun i hi => Nat.lt_of_lt_of_le hi (by simp [Store.insertSource])⟩
  refine { h with
    left := { h.left with }
    right := { h.right with }
    sources := ?_
    source := fun j hj => ?_
    held := fun z hz => (h.held z hz).mono within }
  · simp [Store.insertSource, size]
  · simp only [Store.source, Store.insertSource, Table.get_insert]
    by_cases heq : j.index = s.sources.size
    · rw [if_pos heq, if_pos (heq.trans size.symm)]
      exact like.mono within
    · rw [if_neg heq, if_neg fun other => heq (other.trans size)]
      refine (h.source j ?_).mono within
      simp only [Store.insertSource, Table.size_insert] at hj
      omega

/-- Values that are alike are put into a place. -/
theorem append (h : s.Twin s') {x : Place} (hx : s.HasPlace x) {vs ws : List Value}
    (like : LikeAll (s.scope s') vs ws) (proper : ∀ n q, x = .part n q → ∀ v ∈ vs, q.admits v)
    (proper' : ∀ n q, x = .part n q → ∀ w ∈ ws, q.admits w) :
    Twin (s.modifyList (s.spot x) (·.append vs)) (s'.modifyList (s'.spot x) (·.append ws)) := by
  have hx' := (h.hasPlace x).mpr hx
  refine { h with
    left := h.left.append hx proper
    right := h.right.append hx' proper'
    held := fun y hy => ?_ }
  rw [h.left.held_append hx hy, h.right.held_append hx' ((h.hasPlace y).mpr hy)]
  split
  · exact List.rel_append (h.held y hy) like
  · exact h.held y hy

/-! ## New nodes and documents -/

/-- The same node joins both stores, with lists that hold the same. -/
theorem joins (h : s.Twin s') {n : Node} {place place' : Part → ListId}
    (hl : s.Joins n place t) (hr : s'.Joins n place' t') (room : s.Room n place)
    (room' : s'.Room n place') (fields : t'.fields n = t.fields n)
    (same : ∀ q ∈ n.parts, (s'.list (place' q)).items = (s.list (place q)).items) :
    t.Twin t' := by
  have documents : t.documents = s.documents := hl.documents
  have documents' : t'.documents = s'.documents := hr.documents
  have sources : t.sources = s.sources := by rw [hl.same]
  have sources' : t'.sources = s'.sources := by rw [hr.same]
  have document (d : DocumentId) : t.document d = s.document d := by
    rw [Store.document, Store.document, documents]
  have document' (d : DocumentId) : t'.document d = s'.document d := by
    rw [Store.document, Store.document, documents']
  have within : (s.scope s').Within (t.scope t') := by
    refine ⟨fun a a' => ?_, fun m hm => (hl.nodes m).mpr (.inl hm), fun d => ?_, fun i => ?_⟩
    · simp only [scope, HasDocument, documents, document, document']
      exact id
    · simp only [scope, HasDocument, documents]
      exact id
    · simp only [scope, sources]
      exact id
  refine ⟨hl.tidy h.left room, hr.tidy h.right room', ?_, ?_, ?_, fun m => ?_, fun m hm => ?_, ?_,
    fun d hd => ?_, ?_, fun i hi => ?_, fun x hx => ?_⟩
  · rw [hl.same, hr.same]
    exact h.serial
  · rw [hl.same, hr.same]
    exact h.files
  · rw [hl.same, hr.same]
    exact h.loggers
  · rw [hl.nodes, hr.nodes, h.nodes]
  · rcases (hl.nodes m).mp hm with hm | rfl
    · rw [hl.fields m hm, hr.fields m ((h.nodes m).mpr hm), h.fields m hm]
    · exact fields
  · rw [documents, documents', h.documents]
  · rw [HasDocument, documents] at hd
    rw [document, document']
    exact h.document d hd
  · rw [sources, sources', h.sources]
  · rw [sources] at hi
    rw [Store.source, Store.source, sources, sources']
    exact (h.source i hi).mono within
  · rcases (hl.hasPlace x).mp hx with hx | ⟨q, hq, rfl⟩
    · rw [hl.held hx, hr.held ((h.hasPlace x).mpr hx)]
      exact (h.held x hx).mono within
    · rw [hl.held_own hq, hr.held_own hq, same q hq]
      exact List.forall₂_same.mpr fun v hv => Part.like_of_admits (room.proper q hq v hv)

/-- A document joins either store, with a list that holds nothing. -/
theorem insertDocument (h : s.Twin s') {r r' : DocumentRecord} (like : LikeDocument r r')
    (phony : s.HasNode (.rule r.phony)) (console : s.HasNode (.pool r.console))
    (loose : s.Loose r.arena.statements) (loose' : s'.Loose r'.arena.statements)
    (empty : (s.list r.arena.statements).items = [])
    (empty' : (s'.list r'.arena.statements).items = []) :
    Twin (s.insertDocument r).2 (s'.insertDocument r').2 := by
  have size : s'.documents.size = s.documents.size := h.documents
  have old {d : DocumentId} (hd : s.HasDocument d) :
      (s.insertDocument r).2.document d = s.document d ∧
        (s'.insertDocument r').2.document d = s'.document d := by
    have hne : d.index ≠ s.documents.size := Nat.ne_of_lt hd
    rw [document_insertDocument, document_insertDocument, if_neg hne, if_neg (size ▸ hne)]
    exact ⟨rfl, rfl⟩
  have within :
      (s.scope s').Within ((s.insertDocument r).2.scope (s'.insertDocument r').2) := by
    have known {d : DocumentId} (hd : s.HasDocument d) : (s.insertDocument r).2.HasDocument d :=
      Nat.lt_of_lt_of_le hd (by simp [Store.insertDocument])
    refine ⟨?_, fun _ => id, fun d => known, fun _ => id⟩
    rintro a a' ⟨d, hd, rfl, rfl⟩
    exact ⟨d, known hd, by rw [(old hd).1], by rw [(old hd).2]⟩
  refine { h with
    left := h.left.insertDocument loose phony console
    right := h.right.insertDocument loose' ?_ ?_
    documents := by simp [Store.insertDocument, size]
    document := fun d hd => ?_
    source := fun i hi => (h.source i hi).mono within
    held := fun x hx => ?_ }
  · rw [like.phony]
    exact (h.nodes _).mpr phony
  · rw [like.console]
    exact (h.nodes _).mpr console
  · rcases (hasPlace_insertDocument s r (.statements d)).mp hd with hd | heq
    · rw [(old hd).1, (old hd).2]
      exact h.document d hd
    · cases heq
      rw [document_insertDocument, document_insertDocument, if_pos rfl, if_pos size.symm]
      exact like
  · rcases (hasPlace_insertDocument s r x).mp hx with hx | rfl
    · rw [held_insertDocument r hx, held_insertDocument r' ((h.hasPlace x).mpr hx)]
      exact (h.held x hx).mono within
    · have new : (s.insertDocument r).2.held (.statements ⟨s.documents.size⟩) = [] := by
        rw [Store.held, spot_insertDocument_new]
        exact empty
      have new' : (s'.insertDocument r').2.held (.statements ⟨s.documents.size⟩) = [] := by
        rw [Store.held, ← size, spot_insertDocument_new]
        exact empty'
      rw [new, new']
      exact .nil

end Twin

end Store

end NinjaFile
