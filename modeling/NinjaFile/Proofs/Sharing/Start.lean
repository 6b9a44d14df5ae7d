import NinjaFile.Proofs.Document.Start
import NinjaFile.Proofs.Sharing.Runs

/-!
# A new document to share

A document that is made first of all has the list of its statements and the two nodes that
are built in.  If it is thread-safe, all of this can be shared.
-/

namespace NinjaFile

open Program Store Action

namespace Store

/-- The list of a document that nothing has been appended to, and the bindings of the two
nodes that are built in. -/
def firstLists (ownership : Ownership) (serial : Serial) : List GuardedList :=
  [.make ownership true [], .make ownership false [.object (.binding serial ⟨"command", ""⟩)],
    .make ownership false [.object (.binding (serial + 1) ⟨"depth", "1"⟩)]]

/-- The store with some lists, and with the first of other things that are given. -/
def ofParts (files : FileTree) (logging : Logging) (serial : Serial) (lists : List GuardedList)
    (rules : List RuleRecord) (pools : List PoolRecord) (documents : List DocumentRecord) :
    Store :=
  { ofFiles files with
    lists := ⟨lists.toArray⟩
    rules := ⟨rules.toArray⟩
    pools := ⟨pools.toArray⟩
    documents := ⟨documents.toArray⟩
    logging := logging
    serial := serial }

/-- The store with nothing but a new document. -/
def ofDocument (files : FileTree) (settings : List (String × Value)) (ownership : Ownership)
    (view : View) (logging : Logging) (serial : Serial) : Store :=
  ofParts files logging (serial + 2) (firstLists ownership serial)
    [⟨DocumentId.phonyName, ⟨1⟩⟩] [⟨DocumentId.consoleName, ⟨2⟩, true⟩]
    [⟨settings, ⟨ownership, ⟨0⟩, some view⟩, ⟨0⟩, ⟨0⟩⟩]

theorem ensures_firstDocument (files : FileTree) {config : List (Value × Value)}
    (typed : TypedConfig config) {threadSafe : Bool}
    (hthreadSafe : Settings.value (TypedConfig.settings config) "thread_safe" = .bool threadSafe) :
    Ensures (DocumentId.make (.mapping config)) (ofFiles files) fun d s => d = ⟨0⟩ ∧
      ∃ settings view logging serial, s = ofDocument files settings
        (DocumentId.ownershipOf threadSafe) view logging serial := by
  rw [DocumentId.make]
  refine ensures_bind (ensures_of_alone (Settings.alone_ofMapping config _) ?_)
  change Ensures ((Settings.value (TypedConfig.settings config) "thread_safe").truth >>= _) _ _
  rw [hthreadSafe]
  refine ensures_bind (ensures_of_alone (show (Value.truth (.bool threadSafe)).alone _ =
    (.ok threadSafe, _) from rfl) ?_)
  refine ensures_then (View.returns_ofSettings typed).ensures fun view s found => ?_
  obtain ⟨hlogged, _⟩ := found
  obtain ⟨logging, serial, -, rfl⟩ := hlogged
  generalize DocumentId.ownershipOf threadSafe = ownership
  have arena : (Arena.make ownership (some view)).alone
      (ofParts files logging serial [] [] [] []) =
        (.ok ⟨ownership, ⟨0⟩, some view⟩,
          ofParts files logging serial [.make ownership true []] [] [] []) := rfl
  have phony : (RuleId.make (.text DocumentId.phonyName) (.text "") (.ownership ownership)).alone
      (ofParts files logging serial [.make ownership true []] [] [] []) =
        (.ok ⟨0⟩, ofParts files logging (serial + 1) ((firstLists ownership serial).take 2)
          [⟨DocumentId.phonyName, ⟨1⟩⟩] [] []) := by
    cases ownership <;> rfl
  have console : (PoolId.make (.text DocumentId.consoleName) (.int 1) (.ownership ownership)
      (.bool true)).alone
        (ofParts files logging (serial + 1) ((firstLists ownership serial).take 2)
          [⟨DocumentId.phonyName, ⟨1⟩⟩] [] []) =
        (.ok ⟨0⟩, ofParts files logging (serial + 2) (firstLists ownership serial)
          [⟨DocumentId.phonyName, ⟨1⟩⟩] [⟨DocumentId.consoleName, ⟨2⟩, true⟩] []) := by
    cases ownership <;> rfl
  refine ensures_bind (ensures_of_alone arena ?_)
  refine ensures_bind (ensures_of_alone phony ?_)
  refine ensures_bind (ensures_of_alone console ?_)
  obtain ⟨after, logged⟩ : ∃ after,
      (view.log Logging.debugLevel ("Created document with " ++ ownership.name ++ " ownership")).alone
        (ofParts files logging (serial + 2) (firstLists ownership serial)
          [⟨DocumentId.phonyName, ⟨1⟩⟩] [⟨DocumentId.consoleName, ⟨2⟩, true⟩] []) =
        (.ok (), ofParts files after (serial + 2) (firstLists ownership serial)
          [⟨DocumentId.phonyName, ⟨1⟩⟩] [⟨DocumentId.consoleName, ⟨2⟩, true⟩] []) := ⟨_, rfl⟩
  refine ensures_bind (ensures_of_alone logged ?_)
  exact ensures_of_alone rfl ⟨rfl, _, _, _, serial, rfl⟩

section

variable {files : FileTree} {settings : List (String × Value)} {ownership : Ownership}
  {view : View} {logging : Logging} {serial : Serial}

theorem list_ofDocument (l : ListId) :
    (ofDocument files settings ownership view logging serial).list l =
      (firstLists ownership serial)[l.index]?.getD default := by
  simp only [list, ofDocument, ofParts, Table.get, Table.get?, List.getElem?_toArray]

theorem size_lists_ofDocument :
    (ofDocument files settings ownership view logging serial).lists.size = 3 := rfl

theorem hasNode_ofDocument {n : Node}
    (has : (ofDocument files settings ownership view logging serial).HasNode n) :
    n = .rule ⟨0⟩ ∨ n = .pool ⟨0⟩ := by
  cases n with
  | rule r =>
      obtain ⟨i⟩ := r
      obtain rfl : i = 0 := Nat.lt_one_iff.mp has
      exact .inl rfl
  | pool p =>
      obtain ⟨i⟩ := p
      obtain rfl : i = 0 := Nat.lt_one_iff.mp has
      exact .inr rfl
  | build b => exact (Nat.not_lt_zero b.index has).elim

theorem part_rule_ofDocument (q : Part) :
    (ofDocument files settings ownership view logging serial).part (.rule ⟨0⟩) q = ⟨1⟩ := rfl

theorem part_pool_ofDocument (q : Part) :
    (ofDocument files settings ownership view logging serial).part (.pool ⟨0⟩) q = ⟨2⟩ := rfl

theorem sound_ofDocument :
    (ofDocument files settings ownership view logging serial).Sound where
  fresh _ _ _ := rfl
  plain _ _ h := nomatch h
  arenas d hd := by
    obtain ⟨i⟩ := d
    obtain rfl : i = 0 := Nat.lt_one_iff.mp hd
    exact Nat.zero_lt_succ 2

theorem firstList_cases (l : ListId) :
    ∃ own blocking items,
      (ofDocument files settings ownership view logging serial).list l =
          .make own blocking items ∧
        (l.index = 0 ∧ own = ownership ∧ blocking = true ∧ items = [] ∨
          ∀ v ∈ items, ∃ n b, v = .object (.binding n b)) := by
  obtain ⟨i⟩ := l
  rw [list_ofDocument]
  match i with
  | 0 => exact ⟨_, _, _, rfl, .inl ⟨rfl, rfl, rfl, rfl⟩⟩
  | 1 | 2 => exact ⟨_, _, _, rfl, .inr (by simp)⟩
  | i + 3 => exact ⟨.single, false, [], rfl, .inr (by simp)⟩

end

end Store

namespace Sharing

section

variable {files : FileTree} {settings : List (String × Value)} {view : View} {logging : Logging}
  {serial : Serial}

/-- A new document is safe to share. -/
theorem safe_ofDocument : Safe ⟨0⟩ ⟨.shared, ⟨0⟩, some view⟩
    (ofDocument files settings .shared view logging serial) where
  unassigned := rfl
  known := Nat.zero_lt_one
  arena := rfl
  shared := rfl
  place := ⟨Nat.zero_lt_succ _, rfl⟩
  listed v hv := (List.not_mem_nil hv).elim
  lines l hl v hv := by
    obtain ⟨own, blocking, items, heq, ⟨hzero, -⟩ | lines⟩ := @firstList_cases files settings
      .shared view logging serial l
    · exact absurd (congrArg ListId.mk hzero) hl
    · rw [heq] at hv
      obtain ⟨n, b, rfl⟩ := lines v hv
      rfl
  parts n hn q hq := by
    rw [size_lists_ofDocument]
    rcases hasNode_ofDocument hn with rfl | rfl
    · rw [part_rule_ofDocument]
      exact ⟨by decide, fun heq => nomatch congrArg ListId.index heq⟩
    · rw [part_pool_ofDocument]
      exact ⟨by decide, fun heq => nomatch congrArg ListId.index heq⟩
  apart n m hn hm q hq r hr heq := by
    rcases hasNode_ofDocument hn with rfl | rfl <;> rcases hasNode_ofDocument hm with rfl | rfl <;>
      simp only [part_rule_ofDocument, part_pool_ofDocument] at heq
    · exact ⟨rfl, (List.mem_singleton.mp hq).trans (List.mem_singleton.mp hr).symm⟩
    · exact absurd heq (by decide)
    · exact absurd heq (by decide)
    · exact ⟨rfl, (List.mem_singleton.mp hq).trans (List.mem_singleton.mp hr).symm⟩

theorem fitted_ofDocument : Fitted ⟨.shared, ⟨0⟩, some view⟩
    (ofDocument files settings .shared view logging serial) where
  kind l := by
    obtain ⟨own, blocking, items, heq, -⟩ := @firstList_cases files settings
      .shared view logging serial l
    rw [Store.guard, heq]
    exact Guard.isLocking_ofOwnership own blocking
  blocking := rfl

end

theorem Harmony.rest {d : DocumentId} {a : Arena} {s : Store} (safe : Safe d a s)
    (fitted : Fitted a s) (empty : (s.list a.statements).items = [])
    (free : ∀ l, (s.guard (.list l)).Free) : Harmony d a s ⟨s, []⟩ where
  safe := safe
  fitted := fitted
  accounted l := (free l).vouched
  each _ hmem := (List.not_mem_nil hmem).elim
  pairs := .nil
  slots := by simp [empty]
  contents n q := by simp

/-- Calls on a new document start out in harmony. -/
theorem harmony_ofDocument {files : FileTree} {settings : List (String × Value)} {view : View}
    {logging : Logging} {serial : Serial} :
    Harmony ⟨0⟩ ⟨.shared, ⟨0⟩, some view⟩
      (ofDocument files settings .shared view logging serial)
      ⟨ofDocument files settings .shared view logging serial, []⟩ := by
  refine .rest safe_ofDocument fitted_ofDocument ?_ fun l => ?_
  · rw [list_ofDocument]
    rfl
  · obtain ⟨own, blocking, items, heq, -⟩ := @firstList_cases files settings
      .shared view logging serial l
    rw [Store.guard, heq]
    exact Guard.free_ofOwnership own blocking

end Sharing

end NinjaFile
