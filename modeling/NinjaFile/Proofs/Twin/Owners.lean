import NinjaFile.Proofs.Document.Written
import NinjaFile.Proofs.Twin.Scripts

/-!
# Whose the lists of a node are

A node takes on the ownership of a document when it is appended to it, as often as that
happens.  So all lists of a node that is in a document are guarded as the document says that
it was last appended to; a node that documents of both ownerships have in common is not
guarded as each of them says.
-/

namespace NinjaFile

open Action Program Script

namespace Store

/-- A document has a node among its statements. -/
def Stores (s : Store) (d : DocumentId) (n : Node) : Prop := n.toValue ∈ s.stated d

/-- All lists of a node are guarded by the guards of an ownership. -/
def GuardedBy (s : Store) (n : Node) (o : Ownership) : Prop :=
  ∀ q ∈ n.parts, (s.list (s.part n q)).ownership = o ∧
    (s.list (s.part n q)).guard = .ofOwnership o (s.list (s.part n q)).blocking

theorem stores_iff (s : Store) (d : DocumentId) (n : Node) :
    n ∈ (s.stated d).filterMap Value.node? ↔ s.Stores d n := by
  rw [List.mem_filterMap, Stores]
  constructor
  · rintro ⟨v, hv, found⟩
    rw [← Value.eq_toValue found]
    exact hv
  · exact fun stored => ⟨n.toValue, stored, Object.node?_ofNode n⟩

instance (s : Store) (d : DocumentId) (n : Node) : Decidable (s.Stores d n) :=
  decidable_of_iff _ (stores_iff s d n)

instance (s : Store) (n : Node) (o : Ownership) : Decidable (s.GuardedBy n o) :=
  inferInstanceAs (Decidable (∀ q ∈ n.parts, _ ∧ _))

theorem guardedBy_of_owner {s : Store} (h : s.Tidy) {n : Node} {o : Ownership} (hn : s.HasNode n)
    (owner : ∀ q ∈ n.parts, s.owner (.part n q) = o) : s.GuardedBy n o := by
  intro q hq
  have owner : (s.list (s.part n q)).ownership = o := owner q hq
  refine ⟨owner, ?_⟩
  rw [← owner]
  exact h.guarded _ (h.known (.part n q) ⟨hn, hq⟩)

theorem Stores.hasDocument {s : Store} {d : DocumentId} {n : Node} (h : s.Stores d n) :
    s.HasDocument d := by
  by_contra unknown
  rw [Stores, stated_eq_nil unknown] at h
  cases h

theorem Stores.hasNode {s : Store} (twin : s.Twin s) {d : DocumentId} {n : Node}
    (h : s.Stores d n) : s.HasNode n := by
  have hd := h.hasDocument
  have like := List.forall₂_same.mp (twin.held (.statements d) hd)
  rw [Stores, stated_eq hd] at h
  exact ((like _ h).of_node? (Object.node?_ofNode n)).2.2

end Store

namespace Twin

open Store

/-! ## The last document -/

namespace Command

/-- A step that gives a node an ownership by itself. -/
def Adopts : Command → Prop
  | .call _ method _ _ => method = "adopt"
  | _ => False

theorem Reaches.once {c : Command} {s t : Store} (h : c.Reaches s t) (unadopted : ¬ c.Adopts) :
    s.Once t := by
  cases c with
  | call owner method =>
      rw [Reaches, reach_eq unadopted] at h
      exact h
  | _ => exact h

end Command

/-- In a step a node was appended to a document. -/
def Event.Appends (e : Event) (d : DocumentId) (n : Node) : Prop :=
  e.after.stated d = e.before.stated d ++ [n.toValue]

/-- A node was appended to a document, and to none since. -/
def LastAppended (events : List Event) (n : Node) (d : DocumentId) : Prop :=
  ∃ earlier e later, events = earlier ++ e :: later ∧ e.Appends d n ∧
    ∀ x ∈ later, ∀ d', ¬ x.Appends d' n

section Step

variable {events : List Event} {e : Event} {n : Node} {d : DocumentId}

theorem lastAppended_concat (h : e.Appends d n) : LastAppended (events ++ [e]) n d :=
  ⟨events, e, [], rfl, h, List.forall_mem_nil _⟩

theorem LastAppended.concat (h : LastAppended events n d) (hn : ∀ d', ¬ e.Appends d' n) :
    LastAppended (events ++ [e]) n d := by
  obtain ⟨earlier, x, later, rfl, appends, others⟩ := h
  refine ⟨earlier, x, later ++ [e], by simp, appends, fun y hy => ?_⟩
  rcases List.mem_append.mp hy with hy | hy
  · exact others y hy
  · rw [List.mem_singleton.mp hy]
    exact hn

/-- Every node that is in a document has the ownership of the one that it was last
appended to. -/
def Settled (events : List Event) (s : Store) : Prop :=
  ∀ d n, s.Stores d n → ∃ d', LastAppended events n d' ∧ s.Stores d' n ∧
    ∀ q ∈ n.parts, s.owner (.part n q) = (s.document d').arena.ownership

private theorem Settled.kept (h : Settled events e.before) (twin : e.before.Twin e.before)
    (kept : e.before.Kept e.after) : Settled (events ++ [e]) e.after := by
  intro d n stored
  have unchanged (d : DocumentId) : e.after.Stores d n ↔ e.before.Stores d n := by
    rw [Stores, kept.statements, Stores]
  have stored := (unchanged d).mp stored
  obtain ⟨d', last, home, owner⟩ := h d n stored
  refine ⟨d', last.concat fun x appends => ?_, (unchanged d').mpr home, fun q hq => ?_⟩
  · rw [Event.Appends, kept.statements] at appends
    simp at appends
  · rw [kept.owners n q ⟨stored.hasNode twin, hq⟩, kept.document d' home.hasDocument, owner q hq]

private theorem Settled.moved {v : Value} {home : DocumentId} (h : Settled events e.before)
    (twin : e.before.Twin e.before) (moved : e.before.Moved home v e.after) :
    Settled (events ++ [e]) e.after := by
  intro d n stored
  by_cases same : v = n.toValue
  · -- The node was appended right now.
    subst same
    have statements : e.Appends home n := by rw [Event.Appends, moved.statements, if_pos rfl]
    have found := Object.node?_ofNode n
    refine ⟨home, lastAppended_concat statements, ?_, moved.taken n found⟩
    rw [Stores, statements]
    exact List.mem_append_right _ List.mem_cons_self
  · have apart : v.node? ≠ some n := fun found => same (Value.eq_toValue found)
    have old : e.before.Stores d n := by
      rw [Stores, moved.statements] at stored
      rcases List.mem_append.mp stored with stored | new
      · exact stored
      · split at new
        · exact absurd (List.mem_singleton.mp new).symm same
        · cases new
    obtain ⟨d', last, stays, owner⟩ := h d n old
    refine ⟨d', last.concat fun x appends => ?_, ?_, fun q hq => ?_⟩
    · rw [Event.Appends, moved.statements] at appends
      have more := List.append_cancel_left appends
      split at more
      · exact same (List.singleton_inj.mp more)
      · cases more
    · rw [Stores, moved.statements]
      exact List.mem_append_left _ stays
    · rw [moved.others n q ⟨old.hasNode twin, hq⟩ apart, moved.document d' stays.hasDocument,
        owner q hq]

end Step

/-! ## Whole scripts -/

section Run

variable {s : Store} {results : List Value} {events : List Event}

private theorem settled_run (flags : Nat → Option Bool) (script : List Command)
    (unadopted : ∀ c ∈ script, ¬ c.Adopts) (twin : s.Twin s)
    (given : LikeAll (s.scope s) results results) (h : Settled events s) {i : Nat} {e : Event}
    (he : (run flags script results s)[i]? = some e) :
    Settled (events ++ (run flags script results s).take (i + 1)) e.after ∧
      e.after.Twin e.after := by
  induction script generalizing s results events i with
  | nil => cases he
  | cons c rest ih =>
      have taken := c.taken twin given (flags results.length) (flags results.length)
      let first : Event := ⟨c, s, ((c.program (flags results.length) results).alone s).1,
        ((c.program (flags results.length) results).alone s).2⟩
      have settled : Settled (events ++ [first]) first.after := by
        obtain kept | ⟨d, v, moved⟩ := taken.left.once (unadopted c List.mem_cons_self)
        · exact Settled.kept (e := first) h twin kept
        · exact Settled.moved (e := first) h twin moved
      have within := scope_within twin taken.left.grown taken.right.grown
      cases i with
      | zero =>
          obtain rfl : first = e := Option.some.inj he
          exact ⟨settled, taken.twin⟩
      | succ i =>
          have next := ih (fun c hc => unadopted c (List.mem_cons_of_mem _ hc)) taken.twin
            (List.rel_append (given.mono within) (.cons (c.remembered_like taken.result) .nil))
            settled he
          rw [List.append_assoc] at next
          exact next

end Run

/-- After every step of a script, all lists of a node that is in a document are guarded as the
document says that the node was last appended to, which still has it. -/
theorem guarded_as_last_appended (files : FileTree) (flags : Nat → Option Bool)
    (script : List Command) (unadopted : ∀ c ∈ script, ¬ c.Adopts) {i : Nat} {e : Event}
    (he : (run flags script [] (.ofFiles files))[i]? = some e) {d : DocumentId} {n : Node}
    (stored : e.after.Stores d n) :
    ∃ d', LastAppended ((run flags script [] (.ofFiles files)).take (i + 1)) n d' ∧
      e.after.Stores d' n ∧ e.after.GuardedBy n (e.after.document d').arena.ownership := by
  have start : Settled [] (.ofFiles files) := fun d n stored =>
    absurd stored.hasDocument (Nat.not_lt_zero _)
  obtain ⟨settled, twin⟩ :=
    settled_run flags script unadopted (twin_ofFiles files) .nil start he
  obtain ⟨d', last, stays, owner⟩ := settled d n stored
  exact ⟨d', last, stays, guardedBy_of_owner twin.left (stored.hasNode twin) owner⟩

/-! ## A rule that two documents have -/

/-- Two documents, and a rule that is appended to the one and then to the other. -/
def lending : List Command :=
  [.document ⟨none, none⟩, .document ⟨none, none⟩,
    .statement .rule [.plain (.text "r") rfl, .plain (.text "c") rfl] [],
    .call (.given 0) "add_rule" [.given 2] [], .call (.given 1) "add_rule" [.given 2] []]

private theorem unadopted_lending : ∀ c ∈ lending, ¬ c.Adopts := by
  simp [lending, Command.Adopts]

/-- The first document is for several threads, the other one for a single owner. -/
def lent : List Event := run (fun step => some (step == 0)) lending [] (.ofFiles ⟨[], []⟩)

/-- The rule is appended to the other document. -/
def lentAgain : Event := lent.get ⟨4, by decide +kernel⟩

private theorem lentAgain_last : lent[4]? = some lentAgain := List.getElem?_eq_getElem _

private theorem stores_lentAgain : lentAgain.after.Stores ⟨0⟩ (.rule ⟨2⟩) := by decide +kernel

theorem guarded_as_last_appended_lent :
    (∀ c ∈ lending, ¬ c.Adopts) ∧ lent[4]? = some lentAgain ∧
      lentAgain.after.Stores ⟨0⟩ (.rule ⟨2⟩) ∧
      ∃ d, LastAppended (lent.take 5) (.rule ⟨2⟩) d ∧ lentAgain.after.Stores d (.rule ⟨2⟩) ∧
        lentAgain.after.GuardedBy (.rule ⟨2⟩) (lentAgain.after.document d).arena.ownership :=
  ⟨unadopted_lending, lentAgain_last, stores_lentAgain,
    guarded_as_last_appended ⟨[], []⟩ _ lending unadopted_lending lentAgain_last stores_lentAgain⟩

/-- Not every document that has a node guards the lists of it. -/
theorem not_guarded_as_stored :
    ¬ ∀ (files : FileTree) (flags : Nat → Option Bool) (script : List Command),
      (∀ c ∈ script, ¬ c.Adopts) → ∀ e ∈ run flags script [] (.ofFiles files), ∀ d n,
        e.after.Stores d n → e.after.GuardedBy n (e.after.document d).arena.ownership := by
  intro claim
  have member : lentAgain ∈ lent := List.mem_of_getElem? lentAgain_last
  have guarded := claim ⟨[], []⟩ _ lending unadopted_lending lentAgain member ⟨0⟩ (.rule ⟨2⟩)
    stores_lentAgain
  exact absurd guarded (by decide +kernel)

end Twin

end NinjaFile
