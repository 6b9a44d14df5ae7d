import NinjaFile.Proofs.Arena.Leading
import NinjaFile.Proofs.Document.Making

/-!
# Documents that are being built

While a document is built by one thread, its statements say what has been put into it.
Each node has lists of its own, so that what is attached to one statement is no matter
to the others.
-/

namespace NinjaFile

open Program Store Action

namespace Store

/-- A node that has been made and goes by a name. -/
structure Named (s : Store) (n : Node) (name : String) : Prop where
  has : s.HasNode n
  bare : s.Bare n.identity
  name : (s.fields n).1 = name

theorem Named.adds {s s' : Store} {n : Node} {name : String} (h : s.Named n name)
    (hadds : s.Adds s') : s'.Named n name :=
  ⟨hadds.hasNode h.has, hadds.bare h.bare, by rw [hadds.fields h.has, h.name]⟩

theorem Reads.congr {s s' : Store} {v : Value} {st : Statement} (h : s.Reads v st)
    (same : ∀ n : Node, v = n.toValue → s'.fields n = s.fields n ∧
      ∀ q ∈ n.parts, (s'.list (s'.part n q)).items = (s.list (s.part n q)).items) :
    s'.Reads v st := by
  have node (n : Node) (hn : v = n.toValue) : s'.Reads v st := by
    subst hn
    rw [reads_node] at h ⊢
    exact h.congr (same n rfl).1 (same n rfl).2
  cases v with
  | object o =>
      cases o with
      | rule r => exact node (.rule r) rfl
      | build b => exact node (.build b) rfl
      | pool p => exact node (.pool p) rfl
      | _ => exact h
  | _ => exact h

theorem Reads.kind {s : Store} {v : Value} {st : Statement} (h : s.Reads v st) :
    ∃ o k, v = .object o ∧ o.kind? = some k := by
  cases v with
  | object o => cases o <;> first | exact ⟨_, _, rfl, rfl⟩ | exact h.elim
  | _ => exact h.elim

end Store

/-! ## Around the statements -/

/-- What a document has besides its statements, where all that was given is as it was. -/
structure Ground (given : Store) (d : DocumentId) (a : Arena) (s : Store) : Prop where
  beside : given.Beside s
  new : ¬ given.Knows (.document d)
  late : given.lists.size ≤ a.statements.index
  fresh : s.Fresh
  known : s.Knows (.document d)
  arena : (s.document d).arena = a
  bare : s.Bare (.document d)
  bareArena : s.Bare (.arena a.statements)
  bareView : ∀ view, a.view = some view → s.Bare view.identity
  phony : s.Named (.rule (s.document d).phony) DocumentId.phonyName
  console : s.Named (.pool (s.document d).console) DocumentId.consoleName

namespace Ground

variable {given : Store} {d : DocumentId} {a : Arena} {s s' : Store}

theorem adds (h : Ground given d a s) (hadds : s.Adds s') : Ground given d a s' := by
  have same : s'.document d = s.document d := by
    rw [document, document, hadds.documents]
  refine ⟨h.beside.adds hadds, h.new, h.late, hadds.fresh h.fresh, hadds.knows h.known,
    same ▸ h.arena, hadds.bare h.bare, hadds.bare h.bareArena,
    fun view hview => hadds.bare (h.bareView view hview), ?_, ?_⟩
  · rw [same]
    exact h.phony.adds hadds
  · rw [same]
    exact h.console.adds hadds

theorem modifyList (h : Ground given d a s) {l : ListId} (hl : given.lists.size ≤ l.index)
    (f : GuardedList → GuardedList) : Ground given d a (s.modifyList l f) := by
  refine { h with
    beside := h.beside.modifyList hl f
    fresh := fun i hi => h.fresh i fun known => hi ?_
    phony := ⟨h.phony.has, h.phony.bare, h.phony.name⟩
    console := ⟨h.console.has, h.console.bare, h.console.name⟩ }
  cases i with
  | list j | arena j =>
      refine Nat.lt_of_lt_of_eq known ?_
      rw [size_modifyList]
  | _ => exact known

end Ground

namespace Action

theorem alone_storedMember {s : Store} {v : Value} {i : Identity} (hv : v.identity? = some i)
    (bare : s.Bare i) {name : String} {w : Value} (hw : v.field? s name = some w) :
    (v.storedMember name).alone s = (.ok w, s) := by
  rw [Value.storedMember, alone_read_bind, bare.field hv, hw]
  rfl

end Action

namespace Ground

variable {given : Store} {d : DocumentId} {a : Arena} {s : Store}

theorem alone_statements (h : Ground given d a s) :
    d.statements.alone s = (.ok (.object (.arena a)), s) := by
  refine alone_storedMember rfl h.bare ?_
  rw [← h.arena]
  rfl

theorem alone_phony (h : Ground given d a s) :
    (d.toValue.member "phony_rule").alone s =
      (.ok (.object (.rule (s.document d).phony)), s) :=
  alone_storedMember rfl h.bare rfl

theorem alone_ownership (h : Ground given d a s) :
    (a.member "ownership").alone s = (.ok (.ownership a.ownership), s) :=
  alone_storedMember rfl h.bareArena rfl

theorem alone_logger (h : Ground given d a s) : (a.member "logger").alone s = (.ok a.logger, s) :=
  alone_storedMember rfl h.bareArena rfl

theorem returns_logBy (h : Ground given d a s) (level : Int) (text : String) :
    Returns (logBy a.view level text) s fun _ s' => s.Adds s' := by
  cases hview : a.view with
  | none => exact returns_pure (.refl s)
  | some view =>
      have plain : view.isPlain s = true := by
        simp [View.isPlain, h.bareView view hview _]
      rw [logBy, View.log]
      refine returns_bind (returns_of_alone (alone_read _ _) ?_)
      rw [if_pos plain]
      exact returns_of_alone (alone_modify _ _) (adds_log s _)

theorem returns_logAppended (h : Ground given d a s) {v : Value} {st : Statement} (hv : s.Reads v st)
    (bare : ∀ i, v.identity? = some i → s.Bare i) (index : Nat) :
    Returns (a.logAppended v index) s fun _ s' => s.Adds s' := by
  obtain ⟨o, k, rfl, hk⟩ := hv.kind
  have kind : (Value.object o).kindWord.alone s = (.ok k.word, s) := by
    have stored : ((Value.object o).member "kind").alone s = (.ok (.kind k), s) := by
      cases o <;> first
        | exact alone_storedMember rfl (bare _ rfl) (congrArg (Option.map Value.kind) hk)
        | cases hk
    rw [Value.kindWord, Value.kindOf]
    exact (alone_bind_ok stored _).trans rfl
  have logger : a.logger.logger? "debug" = .ok a.view := by
    rw [Arena.logger]
    cases a.view <;> rfl
  rw [Arena.logAppended]
  refine returns_bind (returns_of_alone h.alone_logger ?_)
  rw [logger]
  refine returns_bind (returns_of_alone (alone_ofExcept _ _) ?_)
  refine returns_bind (returns_of_alone kind ?_)
  exact h.returns_logBy _ _

end Ground

/-! ## Statements -/

/-- A node that has been put into an arena, with lists that are open and were not given. -/
structure Placed (given : Store) (a : Arena) (n : Node) (s : Store) : Prop where
  has : s.HasNode n
  bare : s.Bare n.identity
  late : ∀ q ∈ n.parts, given.lists.size ≤ (s.part n q).index
  opens : ∀ q ∈ n.parts, s.Open (s.part n q)
  elsewhere : ∀ q ∈ n.parts, s.part n q ≠ a.statements

/-- A document that holds values, which say the statements of a file. -/
structure Building (given : Store) (d : DocumentId) (a : Arena) (vs : List Value)
    (file : List Statement) (s : Store) : Prop extends Ground given d a s where
  opens : s.Open a.statements
  items : (s.list a.statements).items = vs
  nodes : ∀ n : Node, n.toValue ∈ vs → Placed given a n s
  apart : ∀ n n' : Node, n.toValue ∈ vs → n'.toValue ∈ vs → ∀ q ∈ n.parts, ∀ q' ∈ n'.parts,
    s.part n q = s.part n' q' → n = n' ∧ q = q'
  reads : List.Forall₂ s.Reads vs file

theorem Placed.adds {given : Store} {a : Arena} {n : Node} {s s' : Store} (h : Placed given a n s)
    (hadds : s.Adds s') : Placed given a n s' where
  has := hadds.hasNode h.has
  bare := hadds.bare h.bare
  late q hq := by
    rw [hadds.part h.has]
    exact h.late q hq
  opens q hq := by
    rw [hadds.part h.has]
    exact hadds.open_ (h.opens q hq)
  elsewhere q hq := by
    rw [hadds.part h.has]
    exact h.elsewhere q hq

theorem Placed.append {given : Store} {a : Arena} {n : Node} {s : Store} (h : Placed given a n s)
    (l : ListId) (items : List Value) : Placed given a n (s.modifyList l (·.append items)) where
  has := h.has
  bare := h.bare
  late := h.late
  opens q hq := (h.opens q hq).append l items
  elsewhere := h.elsewhere

theorem forall₂_reads_congr {s s' : Store} {vs : List Value} {file : List Statement}
    (h : List.Forall₂ s.Reads vs file)
    (same : ∀ n : Node, n.toValue ∈ vs → s'.fields n = s.fields n ∧
      ∀ q ∈ n.parts, (s'.list (s'.part n q)).items = (s.list (s.part n q)).items) :
    List.Forall₂ s'.Reads vs file := by
  have both := (List.forall₂_and_left (p := (· ∈ vs)) vs file).mpr ⟨fun _ => id, h⟩
  refine both.imp fun v st hv => hv.2.congr fun n hn => same n ?_
  rw [← hn]
  exact hv.1

namespace Building

variable {given : Store} {d : DocumentId} {a : Arena} {vs : List Value}
  {file : List Statement} {s s' : Store}

theorem length_eq (h : Building given d a vs file s) : vs.length = file.length := h.reads.length_eq

theorem adds (h : Building given d a vs file s) (hadds : s.Adds s') :
    Building given d a vs file s' where
  toGround := h.toGround.adds hadds
  opens := hadds.open_ h.opens
  items := by
    rw [hadds.list _ h.opens.known]
    exact h.items
  nodes n hn := (h.nodes n hn).adds hadds
  apart n n' hn hn' q hq q' hq' heq := by
    rw [hadds.part (h.nodes n hn).has, hadds.part (h.nodes n' hn').has] at heq
    exact h.apart n n' hn hn' q hq q' hq' heq
  reads := forall₂_reads_congr h.reads fun n hn => by
    have placed := h.nodes n hn
    refine ⟨hadds.fields placed.has, fun q hq => ?_⟩
    rw [hadds.part placed.has, hadds.list _ (placed.opens q hq).known]

/-- A value joins the document.  If it is a node, then it is a new one. -/
theorem join (h : Building given d a vs file s) (hadds : s.Adds s') {v : Value} {st : Statement}
    (made : ∀ n : Node, v = n.toValue → Made s n st s') (hv : s'.Reads v st) :
    Building given d a (vs ++ [v]) (file ++ [st])
      (s'.modifyList a.statements (·.append [v])) := by
  have h' := h.adds hadds
  -- No list of a node is that of the arena, whether it is an old node or the new one.
  have placed (n : Node) (hn : n.toValue ∈ vs ++ [v]) : Placed given a n s' := by
    rcases List.mem_append.mp hn with hn | hn
    · exact h'.nodes n hn
    · have new := made n (List.mem_singleton.mp hn).symm
      refine ⟨new.has, new.bare h.fresh, fun q hq => ?_, new.opens, fun q hq heq => ?_⟩
      · exact Nat.le_trans h.beside.lists (new.late q hq)
      · exact absurd h.opens.known (Nat.not_lt.mpr (heq ▸ new.late q hq))
  have same (n : Node) (hn : n.toValue ∈ vs ++ [v]) :
      (s'.modifyList a.statements (·.append [v])).fields n = s'.fields n ∧
        ∀ q ∈ n.parts, ((s'.modifyList a.statements (·.append [v])).list
          ((s'.modifyList a.statements (·.append [v])).part n q)).items =
            (s'.list (s'.part n q)).items := by
    refine ⟨rfl, fun q hq => ?_⟩
    change ((s'.modifyList a.statements _).list (s'.part n q)).items = _
    rw [items_append_eq, if_neg fun both => (placed n hn).elsewhere q hq both.1.symm]
  have early {n n' : Node} (hn : n.toValue ∈ vs) (hn' : n'.toValue = v) {q q' : Part}
      (hq : q ∈ n.parts) (hq' : q' ∈ n'.parts) : s'.part n q ≠ s'.part n' q' := by
    have old := h.nodes n hn
    rw [hadds.part old.has]
    intro heq
    exact absurd (old.opens q hq).known (Nat.not_lt.mpr (heq ▸ (made n' hn'.symm).late q' hq'))
  refine ⟨h'.toGround.modifyList h.late _, h'.opens.append _ _, ?_, ?_, ?_, ?_⟩
  · rw [items_append_eq, if_pos ⟨rfl, h'.opens.known⟩, h'.items]
  · exact fun n hn => (placed n hn).append _ _
  · intro n n' hn hn' q hq q' hq' heq
    change s'.part n q = s'.part n' q' at heq
    rw [List.mem_append, List.mem_singleton] at hn hn'
    rcases hn with hn | hn <;> rcases hn' with hn' | hn'
    · exact h'.apart n n' hn hn' q hq q' hq' heq
    · exact absurd heq (early hn hn' hq hq')
    · exact absurd heq.symm (early hn' hn hq' hq)
    · obtain rfl : n = n' := by
        have : Object.ofNode n = Object.ofNode n' := Value.object.inj (hn.trans hn'.symm)
        have := congrArg Object.node? this
        rw [Object.node?_ofNode, Object.node?_ofNode] at this
        exact Option.some.inj this
      exact ⟨rfl, (made n hn.symm).distinct q hq q' hq' heq⟩
  · refine List.rel_append (forall₂_reads_congr h'.reads fun n hn => ?_) ?_
    · exact same n (List.mem_append_left _ hn)
    · refine .cons (hv.congr fun n hn => same n ?_) .nil
      rw [← hn]
      simp

theorem reads_last {v : Value} {st : Statement}
    (h : Building given d a (vs ++ [v]) (file ++ [st]) s) :
    List.Forall₂ s.Reads vs file ∧ s.Reads v st := by
  have length : vs.length = file.length := by
    have := h.length_eq
    simpa using this
  constructor
  · have := List.forall₂_take_append _ _ _ h.reads
    rwa [← length, List.take_left] at this
  · have := List.forall₂_drop_append _ _ _ h.reads
    rw [← length, List.drop_left] at this
    cases this with
    | cons hv _ => exact hv

/-- What is put into a list of the last node changes what this node says, and nothing else. -/
theorem change {n : Node} {st st' : Statement}
    (h : Building given d a (vs ++ [n.toValue]) (file ++ [st]) s)
    (last : n.toValue ∉ vs) {q : Part} (hq : q ∈ n.parts) {items : List Value}
    (reads : (s.modifyList (s.part n q) (·.append items)).NodeReads n st') :
    Building given d a (vs ++ [n.toValue]) (file ++ [st'])
      (s.modifyList (s.part n q) (·.append items)) := by
  have mem : n.toValue ∈ vs ++ [n.toValue] := by simp
  refine ⟨h.toGround.modifyList ((h.nodes n mem).late q hq) _, h.opens.append _ _, ?_, ?_,
    h.apart, ?_⟩
  · rw [items_append_eq, if_neg fun both => (h.nodes n mem).elsewhere q hq both.1]
    exact h.items
  · exact fun n' hn' => (h.nodes n' hn').append _ _
  · rw [← reads_node] at reads
    refine List.rel_append ?_ (.cons reads .nil)
    refine forall₂_reads_congr h.reads_last.1 fun n' hn' => ⟨rfl, fun q' hq' => ?_⟩
    change ((s.modifyList _ _).list (s.part n' q')).items = _
    rw [items_append_eq, if_neg]
    rintro ⟨heq, -⟩
    have := (h.apart n n' mem (List.mem_append_left _ hn') q hq q' hq' heq).1
    exact last (this ▸ hn')

end Building

/-! ## Insertions -/

/-- A value that can join a document, made since `s₀`. -/
structure Joining (s₀ : Store) (v : Value) (st : Statement) (s : Store) : Prop where
  adds : s₀.Adds s
  made : ∀ n : Node, v = n.toValue → Made s₀ n st s
  reads : s.Reads v st
  bare : ∀ i, v.identity? = some i → s.Bare i

theorem Made.joining {s₀ s : Store} {n : Node} {st : Statement} (h : Made s₀ n st s)
    (fresh : s₀.Fresh) : Joining s₀ n.toValue st s where
  adds := h.adds
  made n' hn' := by
    have := congrArg Value.node? hn'
    cases n <;> cases n' <;> cases this <;> exact h
  reads := (reads_node s n st).mpr h.reads
  bare i hi := by
    cases n <;> cases hi <;> exact h.bare fresh

namespace Building

variable {given : Store} {d : DocumentId} {a : Arena} {vs : List Value}
  {file : List Statement} {s₀ s : Store}

theorem returns_append (h : Building given d a vs file s₀) {v : Value} {st : Statement}
    (hv : Joining s₀ v st s) :
    Returns (a.append v) s fun i s' =>
      i = vs.length ∧ Building given d a (vs ++ [v]) (file ++ [st]) s' := by
  have adopted : Returns (a.adopt v) s fun _ s' => Joining s₀ v st s' := by
    rw [Arena.adopt]
    split
    · next n hn =>
        obtain rfl : v = n.toValue := by
          cases v with
          | object o => cases o <;> cases hn <;> rfl
          | _ => cases hn
        refine returns_bind (returns_of_alone (h.adds hv.adds).alone_ownership ?_)
        refine returns_mono ((hv.made n rfl).adopt h.fresh a.ownership) fun _ s' made => ?_
        exact made.joining h.fresh
    · exact returns_pure hv
  rw [Arena.append]
  refine returns_then adopted fun _ s' hv => ?_
  have h' := h.adds hv.adds
  refine returns_bind (returns_of_alone (ListId.alone_add h'.opens v) ?_)
  have joined := h.join hv.adds hv.made hv.reads
  have logged := joined.toGround.returns_logAppended joined.reads_last.2
    (fun i hi => hv.bare i hi) (s'.list a.statements).items.length
  refine returns_then logged fun _ s'' hadds => returns_pure ⟨?_, joined.adds hadds⟩
  rw [h'.items]

end Building

end NinjaFile
