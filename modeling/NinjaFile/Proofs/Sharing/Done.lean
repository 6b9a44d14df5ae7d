import NinjaFile.Proofs.Sharing.Calling

/-!
# What returned calls have done

An insertion that has returned has appended one statement; a call that attaches has added
what its arguments stand for to one part of one statement, and nothing else.
-/

namespace NinjaFile.Sharing

open Store Program Script

/-! ## Receivers that lead nowhere -/

/-- Nothing can be attached to the receiver. -/
inductive Lost (s : Store) : Receiver → Prop where
  | mixin (m : Mixin) : Lost s (.mixin m)
  | handle {h : Handle} {v : Value} (shares : s.Shares h.arena.statements) (index : 0 ≤ h.index)
      (item : (s.list h.arena.statements).items[h.index.toNat]? = some v)
      (none : v.node? = none) : Lost s (.handle h)

section

variable {c : Setting} {held : List (LockId × Mode)} {J : Assertion} {r : Receiver}
  {trail : List (Store × Store)} {s s' : Store}

theorem durable_lost (r : Receiver) : Durable fun s => Lost s r := by
  intro s s' h hgrows
  cases h with
  | mixin m => exact .mixin m
  | @handle h v shares index item none =>
      refine .handle (hgrows.shares shares) index ?_ none
      obtain ⟨more, heq⟩ := hgrows.items h.arena.statements
      rw [← heq, List.getElem?_append_left (List.getElem?_eq_some_iff.mp item).1]
      exact item

theorem does_lostPart (firm : Firm c J) (lost : ∀ trail s, J trail s → Lost s r) (q : Part) :
    Does c [] J (r.part q) fun _ _ _ => False := by
  refine does_bind (R := fun _ _ _ => False) ?_ fun _ _ _ _ h => h.elim
  cases r with
  | mixin m => exact does_fail rfl
  | node n => exact fun g s _ hJ => nomatch lost _ _ hJ
  | handle h =>
      refine does_bind (R := fun w _ _ => True ∧ w.node? = none) ?_ fun w => does_pull fun none => ?_
      · refine does_statement firm (fun _ _ hJ => ?_) fun trail s w hJ hw _ => ?_
        · cases lost _ _ hJ with
          | handle shares => exact shares
        · cases lost _ _ hJ with
          | @handle _ v shares index item none =>
              have eq : Value.listItem (s.list h.arena.statements).items (.int h.index) = .ok v := by
                have := Handle.Leads.listItem_eq item
                rwa [Int.toNat_of_nonneg index] at this
              obtain rfl : v = w := Except.ok.inj (eq.symm.trans hw)
              exact ⟨trivial, none⟩
      · simp only [none]
        exact does_fail rfl

theorem aims_or_lost {a : Arena} (place : s.Shares a.statements)
    (belongs : ∀ h, r = .handle h → h.arena = a ∧ Reaches s h) :
    (∃ n, r.subject? s = some n ∧ Aims s n r) ∨ r.subject? s = none ∧ Lost s r := by
  cases r with
  | mixin m => exact .inr ⟨rfl, .mixin m⟩
  | node n => exact .inl ⟨n, rfl, .node⟩
  | handle h =>
      obtain ⟨rfl, index, hlt⟩ := belongs h rfl
      have item := List.getElem?_eq_getElem hlt
      have subject : (Receiver.handle h).subject? s =
          ((s.list h.arena.statements).items[h.index.toNat]).node? := by
        rw [Receiver.subject?, item]
        rfl
      cases hnode : ((s.list h.arena.statements).items[h.index.toNat]).node? with
      | none => exact .inr ⟨subject.trans hnode, .handle place index item hnode⟩
      | some n =>
          refine .inl ⟨n, subject.trans hnode, .handle place index ?_⟩
          rw [item]
          refine congrArg some ?_
          revert hnode
          generalize (s.list h.arena.statements).items[h.index.toNat] = v
          intro hnode
          cases v with
          | object o => cases o <;> cases hnode <;> rfl
          | _ => cases hnode

end

/-! ## Calls -/

/-- The call has added some items to one part of the statement it is about, and nothing
else. -/
structure Gained (k : Stake) (q : Part) (items : List Value) (trail : List (Store × Store)) :
    Prop where
  just : ∀ m r, gained m r trail = if k.node = some m ∧ r = q then items else []
  found : items ≠ [] → k.node.isSome

/-- What a call has done that has returned. -/
def Call.Done (call : Call) (a : Arena) (k : Stake) (trail : List (Store × Store)) : Prop :=
  match call with
  | .attach _ pairs => ∃ items, Gained k .bindings items trail ∧
      List.Forall₂ (fun pair v => Binds pair.1 pair.2 v) pairs items
  | .usePool _ pool => ∃ v, Gained k .bindings [v] trail ∧
      ∃ serial text, v = .object (.binding serial ⟨"pool", text⟩) ∧ Called trail pool text
  | .addPaths _ slot paths => ∃ texts, Gained k (.paths slot) (texts.map .text) trail ∧
      Took trail paths texts
  | call => call.inserts → (added a.statements trail).length = 1

/-- A handle that has been given leads into the arena. -/
def Inside (a : Arena) (v : Value) : Prop := ∀ h, v = .object (.handle h) → h.arena = a

/-- The setting of a call that starts in a store. -/
def Call.setting (d : DocumentId) (a : Arena) (s : Store) (call : Call) : Setting :=
  ⟨d, a, call.stake s⟩

section

variable {d : DocumentId} {a : Arena} {s : Store} {call : Call}

/-- The call has added nothing so far, and it never will. -/
private def Vain (r : Receiver) : Assertion := fun trail s => (∀ m q, gained m q trail = []) ∧ Lost s r

private theorem firm_vain {c : Setting} (r : Receiver) : Firm c (Vain r) where
  stable _ _ _ h hrely := ⟨h.1, durable_lost r _ _ h.2 hrely.grows⟩
  quiet _ _ _ h like _ :=
    ⟨fun m q => (gained_same (content_alike like m q)).trans (h.1 m q),
      durable_lost r _ _ h.2 (.alike like)⟩

private theorem Attaching.started {c : Setting} {r : Receiver} {n : Node}
    (node : c.stake.node = some n) (lists : c.stake.lists = listsOf s n) (has : s.HasNode n)
    (aims : Aims s n r) : Attaching c r n (fun _ _ => []) [] s :=
  ⟨rfl, mine_nil node lists has, aims, fun _ _ => rfl⟩

private theorem Attaching.gained_eq {c : Setting} {r : Receiver} {n : Node} {q : Part}
    {items : List Value} {trail : List (Store × Store)} (node : c.stake.node = some n)
    (h : Attaching c r n (Tally.add (fun _ _ => []) n q items) trail s) :
    Gained c.stake q items trail := by
  refine ⟨fun m p => ?_, fun _ => Option.isSome_iff_exists.mpr ⟨n, node⟩⟩
  rw [h.gained, Tally.add, node, List.nil_append]
  simp only [Option.some.injEq, eq_comm]

private theorem receiver_start (hsafe : Safe d a s) (fits : call.Fits d a s) {r : Receiver}
    (subject : call.subject? s = r.subject? s)
    (target : ∀ h, r = .handle h → call.target? = some (.handle h) ∧ call.through? = some h) :
    (∃ n, (call.stake s).node = some n ∧
        Attaching (call.setting d a s) r n (fun _ _ => []) [] s) ∨
      (call.stake s).node = none ∧ Lost s r := by
  have belongs (h : Handle) (heq : r = .handle h) : h.arena = a ∧ Reaches s h := by
    obtain ⟨htarget, hthrough⟩ := target h heq
    exact ⟨fits.belongs _ htarget, fits.reaches h hthrough⟩
  rcases aims_or_lost hsafe.place belongs with ⟨n, hn, aims⟩ | ⟨hn, hlost⟩
  · have hcall : call.subject? s = some n := subject.trans hn
    refine .inl ⟨n, hcall, .started hcall ?_ (fits.has n hcall) aims⟩
    change ((call.subject? s).map (listsOf s)).getD [] = _
    rw [hcall]
    rfl
  · exact .inr ⟨subject.trans hn, hlost⟩

private theorem does_attachCall (hsafe : Safe d a s) {r : Receiver} {pairs : Attachment}
    (fits : (Call.attach r pairs).Fits d a s) :
    Does ((Call.attach r pairs).setting d a s) [] (AtStart s) (r.attach pairs) fun _ trail _ =>
      (Call.attach r pairs).Done a ((Call.attach r pairs).stake s) trail := by
  rcases receiver_start hsafe fits (r := r) rfl (by rintro h rfl; exact ⟨rfl, rfl⟩) with
    ⟨n, node, start⟩ | ⟨node, lost⟩
  · have attached : Does ((Call.attach r pairs).setting d a s) []
        (Attaching _ r n fun _ _ => []) (r.attach pairs) _ := does_attach rfl pairs
    refine does_mono attached (fun _ _ h => ?_) ?_
    · obtain ⟨rfl, rfl⟩ := h
      exact start
    · rintro _ trail s' ⟨items, h, binds⟩
      exact ⟨items, h.gained_eq node, binds⟩
  · refine does_mono (J := Vain r) ?_ (fun _ _ h => ?_) fun _ _ _ h => h
    · cases pairs with
      | nil =>
          refine does_pure fun trail s' h => ⟨[], ⟨fun m q => ?_, fun h => absurd rfl h⟩, .nil⟩
          rw [h.1]
          split <;> rfl
      | cons pair rest =>
          refine does_bind (R := fun _ _ _ => False) ?_ fun _ _ _ _ h => h.elim
          refine does_bind (does_makeBinding (firm_vain r) _ _) fun v => ?_
          refine does_bind (R := fun _ _ _ => False) ?_ fun _ _ _ _ h => h.elim
          exact does_mono (does_lostPart (firm_vain r) (fun _ _ h => h.2) _) (fun _ _ h => h.1)
            fun _ _ _ h => h
    · obtain ⟨rfl, rfl⟩ := h
      exact ⟨fun _ _ => rfl, lost⟩

private theorem does_usePoolCall (hsafe : Safe d a s) {r : Receiver} {pool : Value}
    (fits : (Call.usePool r pool).Fits d a s) :
    Does ((Call.usePool r pool).setting d a s) [] (AtStart s) (r.usePool pool) fun _ trail _ =>
      (Call.usePool r pool).Done a ((Call.usePool r pool).stake s) trail := by
  have offers : s.Offers ((Call.usePool r pool).borrows s) pool := fits.offers pool (List.mem_singleton_self _)
  rcases receiver_start hsafe fits (r := r) rfl (by rintro h rfl; exact ⟨rfl, rfl⟩) with
    ⟨n, node, start⟩ | ⟨node, lost⟩
  · have attached : Does ((Call.usePool r pool).setting d a s) []
        (fun trail t => Attaching _ r n (fun _ _ => []) trail t ∧
          t.Offers ((Call.usePool r pool).borrows s) pool) (r.usePool pool) _ :=
      does_usePool rfl
    refine does_mono attached (fun _ _ h => ?_) ?_
    · obtain ⟨rfl, rfl⟩ := h
      exact ⟨start, offers⟩
    · rintro _ trail s' ⟨v, h, called⟩
      exact ⟨v, h.gained_eq node, called⟩
  · refine does_mono (J := fun trail t => Vain r trail t ∧
        t.Offers ((Call.usePool r pool).borrows s) pool) (Q := fun _ _ _ => False)
      ?_ (fun _ _ h => ?_) fun _ _ _ h => h.elim
    · have firm := (firm_vain (c := (Call.usePool r pool).setting d a s) r).and
        (durable_offers ((Call.usePool r pool).borrows s) pool).firm
      refine does_bind (does_name firm fun _ _ h => h.2) fun name => ?_
      refine does_bind (R := fun _ _ _ => False) ?_ fun _ _ _ _ h => h.elim
      refine does_mono (J := Vain r) ?_ (fun _ _ h => h.1.1) fun _ _ _ h => h
      refine does_bind (does_makeBinding (firm_vain r) _ _) fun v => ?_
      refine does_bind (R := fun _ _ _ => False) ?_ fun _ _ _ _ h => h.elim
      exact does_mono (does_lostPart (firm_vain r) (fun _ _ h => h.2) _) (fun _ _ h => h.1)
        fun _ _ _ h => h
    · obtain ⟨rfl, rfl⟩ := h
      exact ⟨⟨fun _ _ => rfl, lost⟩, offers⟩

private theorem does_addPathsCall (hsafe : Safe d a s) {r : Receiver} {slot : Slot} {paths : Value}
    (fits : (Call.addPaths r slot paths).Fits d a s) :
    Does ((Call.addPaths r slot paths).setting d a s) [] (AtStart s) (r.addPaths slot paths)
      fun _ trail _ =>
        (Call.addPaths r slot paths).Done a ((Call.addPaths r slot paths).stake s) trail := by
  have offers : s.Offers ((Call.addPaths r slot paths).borrows s) paths := fits.offers paths (List.mem_singleton_self _)
  rcases receiver_start hsafe fits (r := r) rfl (by rintro h rfl; exact ⟨rfl, rfl⟩) with
    ⟨n, node, start⟩ | ⟨node, lost⟩
  · have attached : Does ((Call.addPaths r slot paths).setting d a s) []
        (fun trail t => Attaching _ r n (fun _ _ => []) trail t ∧
          t.Offers ((Call.addPaths r slot paths).borrows s) paths)
        (r.addPaths slot paths) _ := does_addPaths rfl fits.fits slot
    refine does_mono attached (fun _ _ h => ?_) ?_
    · obtain ⟨rfl, rfl⟩ := h
      exact ⟨start, offers⟩
    · rintro _ trail s' ⟨texts, took, h⟩
      exact ⟨texts, h.gained_eq node, took⟩
  · refine does_mono (J := Vain r) (Q := fun _ _ _ => False) ?_ (fun _ _ h => ?_) fun _ _ _ h => h.elim
    · refine does_bind (R := fun _ _ _ => False) ?_ fun _ _ _ _ h => h.elim
      exact does_lostPart (firm_vain r) (fun _ _ h => h.2) _
    · obtain ⟨rfl, rfl⟩ := h
      exact ⟨fun _ _ => rfl, lost⟩

private theorem does_insertion (hsafe : Safe d a s) {i : Insertion}
    (fits : (Call.insert i).Fits d a s) :
    Does ((Call.insert i).setting d a s) [] (AtStart s) i.program
      (Gave ((Call.insert i).setting d a s)) := by
  have belongs : Belongs d a i.owner := fits.belongs _ rfl
  have shared := hsafe.shared
  let c := (Call.insert i).setting d a s
  have inserted (n : Node) (expected : Expected) :
      Does c [] (fun trail s => Clear c trail s ∧ Mine c n trail s)
        (c.document.insert expected n.toValue) (Gave c) :=
    does_mono (does_documentInsert rfl rfl shared expected n.toValue)
      (fun _ _ h => appendable_mine h) fun _ _ _ h => h
  have made (h : c.stake.lists = []) : ∀ trail t, AtStart s trail t → Reserved c [] trail t := by
    rintro _ _ ⟨rfl, rfl⟩
    exact reserved_nil h
  have given (n : Node) (node : c.stake.node = some n) (lists : c.stake.lists = listsOf s n)
      (has : s.HasNode n) : ∀ trail t, AtStart s trail t → Clear c trail t ∧ Mine c n trail t := by
    rintro _ _ ⟨rfl, rfl⟩
    exact ⟨rfl, mine_nil node lists has⟩
  cases i with
  | rule other name command =>
      obtain rfl : other = d := belongs
      refine does_mono ?_ (made rfl) fun _ _ _ h => h
      exact does_bind (does_ruleMake rfl name command .single) fun r => inserted (.rule r) .rule
  | pool other name depth =>
      obtain rfl : other = d := belongs
      refine does_mono ?_ (made rfl) fun _ _ _ h => h
      exact does_bind (does_poolMake rfl name depth .single false) fun p => inserted (.pool p) .pool
  | phony other outputs =>
      obtain rfl : other = d := belongs
      have offers : s.Offers c.stake.borrows outputs :=
        fits.offers outputs (List.mem_singleton_self _)
      have firm : Firm c fun trail s => Reserved c [] trail s ∧ s.Offers c.stake.borrows outputs :=
        (firm_reserved []).and (durable_offers _ outputs).firm
      refine does_mono (J := fun trail s => Reserved c [] trail s ∧
        s.Offers c.stake.borrows outputs) ?_ ?_ fun _ _ _ h => h
      · refine does_bind (R := fun rule trail s => (Reserved c [] trail s ∧
          s.Offers c.stake.borrows outputs) ∧ ∃ r, rule = .object (.rule r)) ?_
          fun rule => does_pull ?_
        · exact does_storedMember firm fun _ _ _ h _ hw => ⟨h, _, (Option.some.inj hw).symm⟩
        · rintro ⟨r, rfl⟩
          refine does_bind (does_mono (does_buildMake rfl _ _ .single)
            (fun _ _ h => ⟨h.1, trivial, h.2⟩) fun _ _ _ h => h) fun b => inserted (.build b) .build
      · intro trail t h
        exact ⟨made rfl trail t h, h.2 ▸ offers⟩
  | addRule other r =>
      obtain rfl : other = d := belongs
      exact does_mono (inserted (.rule r) .rule) (given _ rfl rfl (fits.has _ rfl)) fun _ _ _ h => h
  | addBuild other b =>
      obtain rfl : other = d := belongs
      exact does_mono (inserted (.build b) .build) (given _ rfl rfl (fits.has _ rfl)) fun _ _ _ h => h
  | addPool other p =>
      obtain rfl : other = d := belongs
      exact does_mono (inserted (.pool p) .pool) (given _ rfl rfl (fits.has _ rfl)) fun _ _ _ h => h
  | buildBy h outputs =>
      have arena : h.arena = a := belongs
      have offers : s.Offers c.stake.borrows outputs :=
        fits.offers outputs (List.mem_singleton_self _)
      refine does_mono (does_buildBy (c := c) rfl rfl shared arena outputs) ?_ fun _ _ _ h => h
      intro trail t hstart
      refine ⟨made rfl trail t hstart, ?_, ?_⟩ <;> rw [hstart.2]
      · exact show s.Shares h.arena.statements from arena ▸ hsafe.place
      · exact offers
  | ruleBy h name command =>
      have arena : h.arena = a := belongs
      refine does_mono (does_ruleBy (c := c) rfl rfl shared arena name command) ?_ fun _ _ _ h => h
      intro trail t hstart
      refine ⟨made rfl trail t hstart, ?_⟩
      rw [hstart.2]
      exact show s.Shares h.arena.statements from arena ▸ hsafe.place

private theorem does_fixed (hsafe : Safe d a s) (inserts : call.inserts = true)
    (goes : call.holds = false) (made : Action Value)
    (hmade : Does (call.setting d a s) [] (AtStart s) made fun v =>
      Appendable (call.setting d a s) v) :
    Does (call.setting d a s) [] (AtStart s) (chained (.document d) (made >>= fun v => d.add v))
      fun v trail s' => Once (call.setting d a s) trail s' ∧ Inside a v := by
  refine does_bind (R := fun _ => Once (call.setting d a s)) ?_
    fun _ => does_pure fun _ _ h => ⟨h, nofun⟩
  exact does_bind hmade fun v => does_add goes inserts hsafe.shared v

private theorem does_fixedText (hsafe : Safe d a s) (inserts : call.inserts = true)
    (goes : call.holds = false) (text : Value) {f : String → Serial → Object}
    (frozen : ∀ text n, (f text n).isFrozen) :
    Does (call.setting d a s) [] (AtStart s)
      (chained (.document d) ((ofExcept text.toArgument >>= fun t => makeObject (f t)) >>= fun v => d.add v))
      fun v trail s' => Once (call.setting d a s) trail s' ∧ Inside a v := by
  refine does_fixed hsafe inserts goes _ ?_
  refine does_bind (does_toArgument (Q := fun _ => Clear _) fun _ _ _ _ h => ?_) fun t =>
    does_makeObject _ (frozen t)
  obtain ⟨rfl, rfl⟩ := h
  exact clear_nil

/-- Every call that fits stands by its terms, is never refused a guard, and has done what it
is for when it returns. -/
theorem does_call (hsafe : Safe d a s) (fits : call.Fits d a s) :
    Does (call.setting d a s) [] (AtStart s) call.program fun v trail _ =>
      call.Done a (call.stake s) trail ∧ Inside a v := by
  have reserved (h : (call.stake s).lists = []) :
      ∀ trail t, AtStart s trail t → Reserved (call.setting d a s) [] trail t := by
    rintro _ _ ⟨rfl, rfl⟩
    exact reserved_nil h
  have clear : ∀ trail t, AtStart s trail t → Clear (call.setting d a s) trail t := by
    rintro _ _ ⟨rfl, rfl⟩
    exact clear_nil
  cases call with
  | makeRule name command ownership =>
      refine does_mono ?_ (reserved rfl) fun _ _ _ h => h
      exact does_bind (does_ruleMake rfl name command ownership) fun r =>
        does_pure fun _ _ _ => ⟨nofun, nofun⟩
  | makePool name depth ownership builtIn =>
      refine does_mono ?_ (reserved rfl) fun _ _ _ h => h
      exact does_bind (does_poolMake rfl name depth ownership builtIn) fun p =>
        does_pure fun _ _ _ => ⟨nofun, nofun⟩
  | makeBuild rule outputs ownership =>
      refine does_bind (does_mono (does_buildMake rfl rule outputs ownership) ?_
        fun _ _ _ h => h) fun b => does_pure fun _ _ _ => ⟨nofun, nofun⟩
      intro trail t h
      refine ⟨reserved rfl trail t h, ?_, ?_⟩ <;> rw [h.2]
      · exact fits.offers rule (by simp [Call.looksInto])
      · exact fits.offers outputs (by simp [Call.looksInto])
  | insert i => exact does_bind (does_insertion hsafe fits) fun h => does_pure fun _ _ ⟨once, into⟩ =>
        ⟨fun _ => once, fun _ heq => by cases heq; exact into⟩
  | comment other text =>
      obtain rfl : other = d := fits.belongs _ rfl
      exact does_mono (does_fixedText hsafe rfl rfl text fun _ _ => rfl) (fun _ _ h => h)
        fun _ _ _ h => ⟨fun _ => h.1, h.2⟩
  | binding other name value =>
      obtain rfl : other = d := fits.belongs _ rfl
      refine does_mono (does_fixed hsafe rfl rfl _ ?_) (fun _ _ h => h)
        fun _ _ _ h => ⟨fun _ => h.1, h.2⟩
      refine does_mono (does_makeBinding firm_clear name value) clear ?_
      rintro v trail t ⟨h, serial, b, rfl, -⟩
      exact .inr ⟨_, rfl, rfl, h⟩
  | defaults other outputs =>
      obtain rfl : other = d := fits.belongs _ rfl
      refine does_mono (does_fixed hsafe rfl rfl _ ?_) (fun _ _ h => h)
        fun _ _ _ h => ⟨fun _ => h.1, h.2⟩
      let c := (Call.defaults other outputs).setting other a s
      have firm : Firm c fun trail s => Clear c trail s ∧ s.Offers c.stake.borrows outputs :=
        firm_clear.and (durable_offers c.stake.borrows outputs).firm
      refine does_mono (does_bind (does_arguments firm fun _ _ h => h.2) fun texts =>
        does_mono (does_makeObject _ fun _ => rfl) (fun _ _ h => h.1.1) fun _ _ _ h => h) ?_
        fun _ _ _ h => h
      intro trail t h
      exact ⟨clear trail t h, h.2 ▸ fits.offers outputs (List.mem_singleton_self _)⟩
  | subninja other path =>
      obtain rfl : other = d := fits.belongs _ rfl
      exact does_mono (does_fixedText hsafe rfl rfl path fun _ _ => rfl) (fun _ _ h => h)
        fun _ _ _ h => ⟨fun _ => h.1, h.2⟩
  | inclusion other path =>
      obtain rfl : other = d := fits.belongs _ rfl
      exact does_mono (does_fixedText hsafe rfl rfl path fun _ _ => rfl) (fun _ _ h => h)
        fun _ _ _ h => ⟨fun _ => h.1, h.2⟩
  | attach r pairs =>
      exact does_bind (does_attachCall hsafe fits) fun _ => does_pure fun _ _ h => ⟨h, nofun⟩
  | usePool r pool =>
      exact does_bind (does_usePoolCall hsafe fits) fun _ => does_pure fun _ _ h => ⟨h, nofun⟩
  | addPaths r slot paths =>
      exact does_bind (does_addPathsCall hsafe fits) fun _ => does_pure fun _ _ h => ⟨h, nofun⟩
  | render other =>
      obtain rfl : other = d := fits.belongs _ rfl
      refine does_mono (J := fun _ _ => True) ?_ (fun _ _ _ => trivial) fun _ _ _ h => h
      exact does_bind (does_render (firm_pure True)) fun _ => does_pure fun _ _ _ => ⟨nofun, nofun⟩
  | hold l =>
      have offers : s.Offers ((Call.hold l).borrows s) (.object (.list l)) :=
        fits.offers _ (List.mem_singleton_self _)
      refine does_mono (J := fun _ t => t.Offers ((Call.hold l).borrows s) (.object (.list l))) ?_
        (fun _ _ h => h.2 ▸ offers) fun _ _ _ h => h
      exact does_guarded (durable_offers _ _).firm.stable (fun _ _ h _ => h.imp_right .inr)
        (does_pure fun _ _ _ => ⟨nofun, nofun⟩)
  | source items raises =>
      refine does_mono (J := fun _ _ => True) ?_ (fun _ _ _ => trivial) fun _ _ _ h => h
      exact does_quiet (firm_pure True) (fun s => .of_lists rfl rfl rfl rfl rfl rfl) (fun _ => rfl)
        fun _ _ _ _ => ⟨nofun, nofun⟩

end

end NinjaFile.Sharing
