import NinjaFile.Proofs.Sharing.Attaching
import NinjaFile.Proofs.Sharing.Rendering

/-!
# Calls among others

Every call stands by the terms of sharing, whatever the others do meanwhile, and what it
has done is known when it returns.
-/

namespace NinjaFile.Sharing

open Store Program Script

section

variable {c : Setting} {held : List (LockId × Mode)} {J : Assertion} {r : Receiver}
  {trail : List (Store × Store)} {s s' : Store}

/-! ## Where a call starts -/

/-- Nothing has happened yet, and this is the store. -/
def AtStart (s₀ : Store) : Assertion := fun trail s => trail = [] ∧ s = s₀

theorem clear_nil : Clear c [] s := rfl

theorem reserved_nil (lists : c.stake.lists = []) :
    Reserved c [] [] s where
  clear := rfl
  unused l hl := by
    rcases hl with hl | ⟨step, hmem, -⟩
    · rw [lists] at hl
      exact (List.not_mem_nil hl).elim
    · exact (List.not_mem_nil hmem).elim
  distinct := .nil
  own _ hl := (List.not_mem_nil hl).elim
  known _ hl := (List.not_mem_nil hl).elim

theorem mine_nil {n : Node} (node : c.stake.node = some n) (lists : c.stake.lists = listsOf s n)
    (has : s.HasNode n) : Mine c n [] s where
  own := .inl node
  has := has
  lists _ hq := .inl (lists ▸ List.mem_map_of_mem hq)

/-! ## Insertions -/

theorem firm_appendable (v : Value) : Firm c (Appendable c v) where
  stable _ _ _ h hrely := by
    rcases h with ⟨n, heq, given⟩ | ⟨o, heq, frozen, clear⟩
    · exact .inl ⟨n, heq, (firm_given n []).stable _ _ _ given hrely⟩
    · exact .inr ⟨o, heq, frozen, clear⟩
  quiet _ _ _ h like same := by
    rcases h with ⟨n, heq, given⟩ | ⟨o, heq, frozen, clear⟩
    · exact .inl ⟨n, heq, (firm_given n []).quiet _ _ _ given like same⟩
    · exact .inr ⟨o, heq, frozen, firm_clear.quiet _ _ _ clear like same⟩

theorem appendable_mine {n : Node} (h : Clear c trail s ∧ Mine c n trail s) :
    Appendable c n.toValue trail s :=
  .inl ⟨n, rfl, h.1, h.2, fun _ hq => (List.not_mem_nil hq).elim⟩

theorem does_makeObject (f : Serial → Object) (frozen : ∀ n, (f n).isFrozen) :
    Does c held (Clear c) (makeObject f) fun v => Appendable c v := by
  refine does_quiet firm_clear (fun s => alike_serial s _) (fun _ => rfl) fun _ s h _ => ?_
  exact .inr ⟨_, rfl, frozen _, h⟩

variable (goes : c.stake.holds = false) (inserts : c.stake.inserts = true)
  (shared : c.arena.ownership = .shared)

include goes inserts shared

theorem does_documentInsert (expected : Expected) (v : Value) :
    Does c [] (Appendable c v) (c.document.insert expected v) (Gave c) := by
  refine does_bind (does_documentStatements (firm_appendable v)) fun place => does_pull ?_
  rintro rfl
  exact does_insert goes inserts shared expected v

theorem does_add (v : Value) : Does c [] (Appendable c v) (c.document.add v) fun _ => Once c := by
  refine does_bind (does_documentStatements (firm_appendable v)) fun place => does_pull ?_
  rintro rfl
  exact does_bind (does_arenaAppend goes inserts shared v) fun _ => does_pure fun _ _ h => h

omit goes inserts shared in
private theorem does_ownership (firm : Firm c J) {h : Handle} (arena : h.arena = c.arena) :
    Does c held J h.statements (fun place trail s => J trail s ∧ place = .object (.arena c.arena)) :=
  arena ▸ does_handleStatements firm

omit goes inserts in
private theorem does_arenaOwnership (firm : Firm c J) :
    Does c held J ((Value.object (.arena c.arena)).member "ownership") fun w trail s =>
      J trail s ∧ w = .ownership .shared := by
  refine does_storedMember firm fun trail s w h _ hw => ⟨h, ?_⟩
  have hw : some (Value.ownership c.arena.ownership) = some w := hw
  exact (Option.some.inj hw).symm.trans (congrArg Value.ownership shared)

theorem does_buildBy {h : Handle} (arena : h.arena = c.arena) (outputs : Value) :
    Does c [] (fun trail s => Reserved c [] trail s ∧ s.Offers c.stake.borrows h.toValue ∧ s.Offers c.stake.borrows outputs)
      (h.build outputs) (Gave c) := by
  have firm : Firm c fun trail s => Reserved c [] trail s ∧ s.Offers c.stake.borrows h.toValue ∧ s.Offers c.stake.borrows outputs :=
    (firm_reserved []).and ((durable_offers _ _).firm.and (durable_offers _ _).firm)
  refine does_bind (does_ownership firm arena) fun place => does_pull ?_
  rintro rfl
  refine does_bind (does_arenaOwnership shared firm) fun ownership => does_pull ?_
  rintro rfl
  refine does_bind (does_buildMake goes _ _ .shared) fun b => ?_
  have firm' := firm_clear.and (firm_mine (c := c) (.build b))
  refine does_bind (does_ownership firm' arena) fun place => does_pull ?_
  rintro rfl
  exact does_mono (does_insert goes inserts shared .build (Node.build b).toValue)
    (fun _ _ h => appendable_mine h) fun _ _ _ h => h

theorem does_ruleBy {h : Handle} (arena : h.arena = c.arena) (name command : Value) :
    Does c [] (fun trail s => Reserved c [] trail s ∧ s.Offers c.stake.borrows h.toValue)
      (h.rule name command) (Gave c) := by
  have firm : Firm c fun trail s => Reserved c [] trail s ∧ s.Offers c.stake.borrows h.toValue :=
    (firm_reserved []).and (durable_offers _ _).firm
  refine does_bind (does_ownership firm arena) fun place => does_pull ?_
  rintro rfl
  refine does_bind (does_arenaOwnership shared firm) fun ownership => does_pull ?_
  rintro rfl
  refine does_bind (does_frame (durable_offers _ _).persistent (does_ruleMake goes name command .shared))
    fun r => ?_
  refine does_bind (R := fun _ trail s => Clear c trail s ∧ Mine c (.rule r) trail s) ?_ fun _ => ?_
  · -- Whatever the call has added so far, the binding comes on top of it.
    have attached : Does c [] (fun trail s => ∃ tally : Tally,
        Attaching c (.node (.rule r)) (.rule r) tally trail s ∧ s.Offers c.stake.borrows h.toValue)
        (Receiver.usePool (.node (.rule r)) h.toValue)
        fun _ trail s => Clear c trail s ∧ Mine c (.rule r) trail s := by
      refine does_exists fun tally => does_mono (does_usePool goes) (fun _ _ h => h) ?_
      rintro _ _ _ ⟨v, attaching, -⟩
      exact ⟨attaching.clear, attaching.mine⟩
    refine does_mono attached ?_ fun _ _ _ h => h
    rintro trail s ⟨⟨clear, mine⟩, offers⟩
    exact ⟨fun m q => gained m q trail, ⟨clear, mine, .node, fun _ _ => rfl⟩, offers⟩
  · have firm' := firm_clear.and (firm_mine (c := c) (.rule r))
    refine does_bind (does_ownership firm' arena) fun place => does_pull ?_
    rintro rfl
    exact does_mono (does_insert goes inserts shared .rule (Node.rule r).toValue)
      (fun _ _ h => appendable_mine h) fun _ _ _ h => h

end

end NinjaFile.Sharing
