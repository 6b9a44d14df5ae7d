import NinjaFile.Proofs.Sharing.Preservation

/-!
# What calls have to themselves

While a call goes on, the statement it is about, the statements it has made and their
lists are its own: an act of another call leaves them alone, and they stay apart from what
the other call has.
-/

namespace NinjaFile.Sharing

open Store

variable {a : Arena} {k k' : Stake} {trail trail' : List (Store × Store)} {s s' : Store}

/-! ## One step more -/

theorem madeList_append {l : ListId} :
    MadeList (trail ++ [(s, s')]) l ↔
      MadeList trail l ∨ s.lists.size ≤ l.index ∧ l.index < s'.lists.size := by
  simp only [MadeList, List.mem_append, List.mem_singleton, or_and_right, exists_or, exists_eq_left]

theorem madeNode_append {n : Node} :
    MadeNode (trail ++ [(s, s')]) n ↔ MadeNode trail n ∨ ¬ s.HasNode n ∧ s'.HasNode n := by
  simp only [MadeNode, List.mem_append, List.mem_singleton, or_and_right, exists_or, exists_eq_left]

namespace Stake

theorem hasList_append {l : ListId} :
    k.HasList (trail ++ [(s, s')]) l ↔
      k.HasList trail l ∨ s.lists.size ≤ l.index ∧ l.index < s'.lists.size := by
  rw [HasList, HasList, madeList_append, or_assoc]

theorem hasNode_append {n : Node} :
    k.HasNode (trail ++ [(s, s')]) n ↔ k.HasNode trail n ∨ ¬ s.HasNode n ∧ s'.HasNode n := by
  rw [HasNode, HasNode, madeNode_append, or_assoc]

end Stake

/-! ## Owners -/

/-- What a call has is there. -/
structure Known (k : Stake) (trail : List (Store × Store)) (s : Store) : Prop where
  lists : ∀ l, k.HasList trail l → l.index < s.lists.size
  nodes : ∀ n, k.HasNode trail n → s.HasNode n

/-- A call has the lists of just the statements that it has. -/
structure Owns (a : Arena) (k : Stake) (trail : List (Store × Store)) (s : Store) : Prop
    extends Known k trail s where
  parts : ∀ n, s.HasNode n → ∀ q ∈ n.parts, k.HasList trail (s.part n q) ↔ k.HasNode trail n
  ne : ∀ l, k.HasList trail l → l ≠ a.statements

/-- Two calls have nothing in common. -/
structure Apart (k : Stake) (trail : List (Store × Store)) (k' : Stake)
    (trail' : List (Store × Store)) : Prop where
  lists : ∀ l, k.HasList trail l → ¬ k'.HasList trail' l
  nodes : ∀ n, k.HasNode trail n → ¬ k'.HasNode trail' n

theorem Apart.symm (h : Apart k trail k' trail') : Apart k' trail' k trail :=
  ⟨fun l hl hl' => h.lists l hl' hl, fun n hn hn' => h.nodes n hn' hn⟩

theorem Known.grows (h : Known k trail s) (hgrows : Grows s s') : Known k trail s' :=
  ⟨fun l hl => Nat.lt_of_lt_of_le (h.lists l hl) hgrows.lists,
    fun n hn => hgrows.nodes n (h.nodes n hn)⟩

theorem Known.note (h : Known k trail s) (hgrows : Grows s s') :
    Known k (trail ++ [(s, s')]) s' where
  lists l hl := by
    rcases Stake.hasList_append.mp hl with hold | hnew
    · exact (h.grows hgrows).lists l hold
    · exact hnew.2
  nodes n hn := by
    rcases Stake.hasNode_append.mp hn with hold | hnew
    · exact (h.grows hgrows).nodes n hold
    · exact hnew.2

theorem Apart.note (h : Apart k trail k' trail') (known : Known k' trail' s) :
    Apart k (trail ++ [(s, s')]) k' trail' where
  lists l hl hl' := by
    rcases Stake.hasList_append.mp hl with hold | hnew
    · exact h.lists l hold hl'
    · exact absurd (known.lists l hl') (Nat.not_lt.mpr hnew.1)
  nodes n hn hn' := by
    rcases Stake.hasNode_append.mp hn with hold | hnew
    · exact h.nodes n hold hn'
    · exact hnew.1 (known.nodes n hn')

/-! ## Acts of others -/

/-- An act leaves alone what another call has. -/
theorem Act.rely (act : Act a k' trail' s s') (owns : Owns a k trail s)
    (apart : Apart k trail k' trail') : Rely k trail s s' := by
  have grows := act.grows
  cases act with
  | quiet like _ => exact .alike like
  | list ownership blocking items _ =>
      have hadds := adds_insertList s (.make ownership blocking items)
      refine ⟨grows, fun l hl => by rw [hadds.list l (owns.lists l hl)], ?_, ?_⟩
      · exact fun n _ q _ => part_insertList ..
      · exact fun n hn q _ _ => ⟨(hasNode_insertList ..).mp hn, part_insertList ..⟩
  | @append l own _ items _ =>
      refine ⟨grows, fun j hj => ?_, fun n _ q _ => part_modifyList .., fun n hn q _ _ =>
        ⟨(hasNode_modifyList ..).mp hn, part_modifyList ..⟩⟩
      rw [items_append_eq, if_neg]
      rintro ⟨rfl, -⟩
      exact apart.lists _ hj own
  | insert _ _ _ =>
      refine ⟨grows, fun j hj => ?_, fun n _ q _ => part_modifyList .., fun n hn q _ _ =>
        ⟨(hasNode_modifyList ..).mp hn, part_modifyList ..⟩⟩
      rw [items_append_eq, if_neg]
      rintro ⟨rfl, -⟩
      exact owns.ne _ hj rfl
  | node making own =>
      have hadds := making.adds
      refine ⟨grows, fun l hl => by rw [hadds.list l (owns.lists l hl)], ?_, ?_⟩
      · exact fun n hn q _ => hadds.part (owns.nodes n hn) q
      · intro m hm q hq hl
        rcases (making.has m).mp hm with hold | rfl
        · exact ⟨hold, hadds.part hold q⟩
        · exact absurd (own q hq) (apart.lists _ hl)
  | @part n q l own has hq made _ _ _ _ =>
      refine ⟨grows, fun j _ => by rw [list_setPart], ?_, ?_⟩
      · intro m hm r hr
        rcases part_setPart_or has hq hr l with ⟨rfl, -⟩ | heq
        · exact absurd own (apart.nodes m hm)
        · exact heq
      · intro m hm r hr hl
        rcases part_setPart_or has hq hr l with ⟨-, -, heq⟩ | heq
        · rw [heq] at hl
          exact absurd made (apart.lists l hl)
        · exact ⟨(hasNode_setPart ..).mp hm, heq⟩

/-- What others do does not change what a call has. -/
theorem Rely.owns (h : Rely k trail s s') (owns : Owns a k trail s) : Owns a k trail s' where
  toKnown := owns.toKnown.grows h.grows
  parts n hn q hq := by
    constructor
    · intro hl
      obtain ⟨has, heq⟩ := h.others n hn q hq hl
      exact (owns.parts n has q hq).mp (heq ▸ hl)
    · intro hk
      rw [h.parts n hk q hq]
      exact (owns.parts n (owns.nodes n hk) q hq).mpr hk
  ne := owns.ne

/-! ## Own acts -/

/-- The lists and the statements that a call makes become its own. -/
theorem Act.owns (act : Act a k trail s s') {d : DocumentId} (safe : Safe d a s)
    (owns : Owns a k trail s) : Owns a k (trail ++ [(s, s')]) s' := by
  refine ⟨owns.toKnown.note act.grows, ?_, ?_⟩
  · intro n hn q hq
    rw [Stake.hasList_append, Stake.hasNode_append]
    -- A statement that stays as it is has the same owner as before.
    have kept (has : s.HasNode n) (heq : s'.part n q = s.part n q) :
        (k.HasList trail (s'.part n q) ∨
            s.lists.size ≤ (s'.part n q).index ∧ (s'.part n q).index < s'.lists.size) ↔
          k.HasNode trail n ∨ ¬ s.HasNode n ∧ s'.HasNode n := by
      rw [heq, owns.parts n has q hq]
      have := (safe.parts n has q hq).1
      constructor
      · rintro (hk | hnew)
        · exact .inl hk
        · omega
      · rintro (hk | hnew)
        · exact .inl hk
        · exact absurd has hnew.1
    cases act with
    | quiet like _ => exact kept ((like.hasNode n).mp hn) (like.part n q)
    | list => exact kept ((hasNode_insertList ..).mp hn) (part_insertList ..)
    | append => exact kept ((hasNode_modifyList ..).mp hn) (part_modifyList ..)
    | insert => exact kept ((hasNode_modifyList ..).mp hn) (part_modifyList ..)
    | node making own =>
        rcases (making.has n).mp hn with hold | rfl
        · exact kept hold (making.adds.part hold q)
        · exact iff_of_true (.inl (own q hq)) (.inr ⟨making.new, hn⟩)
    | @part m r l own has hr made _ _ _ _ =>
        rw [hasNode_setPart] at hn
        rcases part_setPart_or has hr hq l with ⟨rfl, rfl, heq⟩ | heq
        · rw [heq]
          exact iff_of_true (.inl made) (.inl own)
        · exact kept hn heq
  · intro l hl
    rcases Stake.hasList_append.mp hl with hold | hnew
    · exact owns.ne l hold
    · rintro rfl
      exact absurd safe.place.known (Nat.not_lt.mpr hnew.1)

end NinjaFile.Sharing

/-!
## Contributions

What the steps of a call add to the lists of statements and to the document.
-/

namespace NinjaFile.Sharing

open Store

/-- What a part of a statement holds, as soon as there is the statement. -/
def content (s : Store) (n : Node) (q : Part) : List Value :=
  if s.HasNode n ∧ q ∈ n.parts then (s.list (s.part n q)).items else []

/-- What some steps have added to a part of a statement. -/
def gained (n : Node) (q : Part) (trail : List (Store × Store)) : List Value :=
  trail.flatMap fun (before, after) => (content after n q).drop (content before n q).length

section

variable {a : Arena} {k : Stake} {trail : List (Store × Store)} {s s' : Store} {n : Node} {q : Part}

theorem gained_note (n : Node) (q : Part) (trail : List (Store × Store)) (s s' : Store) :
    gained n q (trail ++ [(s, s')]) =
      gained n q trail ++ (content s' n q).drop (content s n q).length := by
  simp [gained]

theorem gained_same (h : content s' n q = content s n q) :
    gained n q (trail ++ [(s, s')]) = gained n q trail := by
  simp [gained_note, h]

theorem added_same {l : ListId} (h : (s'.list l).items = (s.list l).items) :
    added l (trail ++ [(s, s')]) = added l trail := by
  rw [added_append]
  simp [added, h]

theorem content_alike (like : s.Alike s') (n : Node) (q : Part) :
    content s' n q = content s n q := by
  simp only [content, like.hasNode, like.part, like.items]

theorem content_modifyList (s : Store) (l : ListId) (items : List Value) (n : Node) (q : Part) :
    content (s.modifyList l (·.append items)) n q =
      if s.part n q = l ∧ l.index < s.lists.size then
        content s n q ++ (if s.HasNode n ∧ q ∈ n.parts then items else [])
      else content s n q := by
  simp only [content, hasNode_modifyList, part_modifyList, items_append_eq]
  by_cases hl : s.part n q = l
  · subst hl
    split <;> simp
  · simp [hl, Ne.symm hl]

theorem gained_append_part {d : DocumentId} (safe : Safe d a s) (hn : s.HasNode n)
    (hq : q ∈ n.parts) (items : List Value) (m : Node) (r : Part) :
    gained m r (trail ++ [(s, s.modifyList (s.part n q) (·.append items))]) =
      gained m r trail ++ (if m = n ∧ r = q then items else []) := by
  rw [gained_note, content_modifyList]
  congr 1
  by_cases heq : m = n ∧ r = q
  · obtain ⟨rfl, rfl⟩ := heq
    simp [hn, hq, (safe.parts m hn r hq).1]
  · rw [if_neg heq]
    split
    · next hsame =>
        have : ¬ (s.HasNode m ∧ r ∈ m.parts) := fun ⟨hm, hr⟩ =>
          heq (safe.apart m n hm hn r hr q hq hsame.1)
        simp [this]
    · simp

/-- A call adds to the lists of its own statements only. -/
theorem Act.content (act : Act a k trail s s') {d : DocumentId} (safe : Safe d a s)
    (owns : Owns a k trail s) (n : Node) (q : Part) :
    content s' n q = content s n q ∨
      k.HasNode (trail ++ [(s, s')]) n ∧ content s n q <+: content s' n q := by
  rw [Stake.hasNode_append]
  cases act with
  | quiet like _ => exact .inl (content_alike like n q)
  | list ownership blocking items _ =>
      refine .inl ?_
      simp only [Sharing.content, hasNode_insertList, part_insertList]
      split
      · next h => rw [(adds_insertList ..).list _ (safe.parts n h.1 q h.2).1]
      · rfl
  | @append l own _ items _ =>
      rw [content_modifyList]
      split
      · next hl =>
          by_cases h : s.HasNode n ∧ q ∈ n.parts
          · refine .inr ⟨.inl ?_, List.prefix_append _ _⟩
            exact (owns.parts n h.1 q h.2).mp (hl.1 ▸ own)
          · simp [h]
      · exact .inl rfl
  | insert _ _ _ =>
      rw [content_modifyList]
      split
      · next hl =>
          refine .inl ?_
          rw [if_neg, List.append_nil]
          exact fun h => (safe.parts n h.1 q h.2).2 hl.1
      · exact .inl rfl
  | @node m s' making own =>
      by_cases hnew : s.HasNode n
      · refine .inl ?_
        simp only [Sharing.content, hnew, making.adds.hasNode hnew, making.adds.part hnew,
          Store.list, making.lists]
      · have : Sharing.content s n q = [] := if_neg fun h => hnew h.1
        rw [this]
        by_cases has : s'.HasNode n
        · exact .inr ⟨.inr ⟨hnew, has⟩, List.nil_prefix⟩
        · exact .inl (if_neg fun h => has h.1)
  | @part m r l own has hr made _ _ _ same =>
      refine .inl ?_
      simp only [Sharing.content, hasNode_setPart, list_setPart]
      split
      · next h =>
          rcases part_setPart_or has hr h.2 l with ⟨rfl, rfl, heq⟩ | heq <;> rw [heq]
          exact same
      · rfl

/-- The document gets one statement in one step of a call at most. -/
theorem Act.document (act : Act a k trail s s') {d : DocumentId} (safe : Safe d a s) :
    (s'.list a.statements).items = (s.list a.statements).items ∨
      k.inserts = true ∧ added a.statements trail = [] ∧
        ∃ v, (s'.list a.statements).items = (s.list a.statements).items ++ [v] := by
  cases act with
  | quiet like _ => exact .inl (like.items _)
  | list => exact .inl (by rw [(adds_insertList ..).list _ safe.place.known])
  | append own ne items _ => exact .inl (by rw [items_append_eq, if_neg fun h => ne h.1])
  | @insert v inserts first _ =>
      refine .inr ⟨inserts, first, v, ?_⟩
      rw [items_append_eq, if_pos ⟨rfl, safe.place.known⟩]
  | node making _ => exact .inl (by rw [Store.list, Store.list, making.lists])
  | part => exact .inl (by rw [list_setPart])

end

end NinjaFile.Sharing
