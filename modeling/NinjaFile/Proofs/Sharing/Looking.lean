import NinjaFile.Proofs.Sharing.Terms

/-!
# Looking at a shared document

Conversions, attributes and handles: actions that look at lists at most.  They change
nothing that an assertion about lists and statements is about.
-/

namespace NinjaFile.Sharing

open Store Program

/-! ## What lasts -/

/-- What holds of a store for good. -/
def Durable (P : Store → Prop) : Prop := ∀ s s', P s → Grows s s' → P s'

section

variable {c : Setting} {α β : Type} {held : List (LockId × Mode)} {J K : Assertion}

theorem Firm.and (hJ : Firm c J) (hK : Firm c K) : Firm c fun trail s => J trail s ∧ K trail s where
  stable _ _ _ h hrely := ⟨hJ.stable _ _ _ h.1 hrely, hK.stable _ _ _ h.2 hrely⟩
  quiet _ _ _ h like same := ⟨hJ.quiet _ _ _ h.1 like same, hK.quiet _ _ _ h.2 like same⟩

theorem Durable.firm {P : Store → Prop} (h : Durable P) : Firm c fun _ s => P s where
  stable _ s s' hP hrely := h s s' hP hrely.grows
  quiet _ s s' hP like _ := h s s' hP (.alike like)

theorem firm_past {P : List (Store × Store) → Prop}
    (h : ∀ trail step, P trail → P (trail ++ [step])) : Firm c fun trail _ => P trail where
  stable _ _ _ hP _ := hP
  quiet trail s s' hP _ _ := h trail (s, s') hP

theorem firm_pure (p : Prop) : Firm c fun _ _ => p := firm_past fun _ _ h => h

theorem durable_offers (others : List ListId) (v : Value) : Durable fun s => s.Offers others v :=
  fun _ _ h hgrows => hgrows.offers h

theorem durable_listed (v : Value) : Durable fun s => s.Listed v := fun _ _ h hgrows => hgrows.listed v h

/-- No step can make an assertion wrong, whoever takes it. -/
def Persistent (P : Assertion) : Prop :=
  (∀ trail s s', P trail s → Grows s s' → P trail s') ∧
    ∀ trail s step, P trail s → P (trail ++ [step]) s

theorem Durable.persistent {P : Store → Prop} (h : Durable P) : Persistent fun _ s => P s :=
  ⟨fun _ s s' hP hgrows => h s s' hP hgrows, fun _ _ _ hP => hP⟩

theorem persistent_past {P : List (Store × Store) → Prop}
    (h : ∀ trail step, P trail → P (trail ++ [step])) : Persistent fun trail _ => P trail :=
  ⟨fun _ _ _ hP _ => hP, fun trail _ step hP => h trail step hP⟩

theorem does_frame {P : Assertion} (persistent : Persistent P) {p : Action α}
    {Q : α → Assertion} (h : Does c held J p Q) :
    Does c held (fun trail s => J trail s ∧ P trail s) p fun x trail s => Q x trail s ∧ P trail s := by
  have frame {R : Except Fault α → Progress Store → Store → Prop} (p : Action α)
      (g : Progress Store) (s : Store) (hp : p.wp c.terms R g s) (hP : P g.trail s) :
      p.wp c.terms (fun r g s => R r g s ∧ P g.trail s) g s := by
    induction p generalizing g s with
    | pure a => exact ⟨hp, hP⟩
    | fail fault => exact ⟨hp, hP⟩
    | act f next ih =>
        intro s' hrely hsafe
        obtain ⟨hact, hafter, hnext⟩ := hp s' hrely hsafe
        have later := persistent.1 _ _ _ (persistent.1 _ _ _ hP hrely.grows) hact.grows
        exact ⟨hact, hafter, ih s' _ _ hnext (persistent.2 _ _ _ later)⟩
    | enter lock mode next ih =>
        intro s' hrely hsafe
        obtain ⟨henters, hnone, -⟩ := hp s' hrely hsafe
        exact ⟨henters, ih none _ _ hnone (persistent.1 _ _ _ hP hrely.grows), fun h => h.elim⟩
    | leave lock mode next ih => exact ih _ _ hp hP
    | call request next ih => exact ih _ _ hp hP
  rintro g s hheld ⟨hJ, hP⟩
  refine wp_mono ?_ (frame p g s (h g s hheld hJ) hP)
  rintro r g s ⟨⟨hin, hok, herror⟩, hP⟩
  exact ⟨hin, fun x hx => ⟨hok x hx, hP⟩, herror⟩

/-! ## Steps that change nothing -/

theorem does_quiet {f : Store → α × Store} {Q : α → Assertion} (firm : Firm c J)
    (like : ∀ s : Store, s.Alike (f s).2) (same : ∀ s, (f s).2.lists = s.lists)
    (h : ∀ trail s, J (trail ++ [(s, (f s).2)]) (f s).2 → Safe c.document c.arena s →
      Q (f s).1 (trail ++ [(s, (f s).2)]) (f s).2) : Does c held J (.update f) Q :=
  does_update firm.stable fun trail s hJ hsafe =>
    ⟨.quiet (like s) (same s), h trail s (firm.quiet _ _ _ hJ (like s) (same s)) hsafe⟩

theorem does_request (id : SourceId) : Does c held J (.request id) fun _ => J :=
  fun _ _ hheld hJ => ⟨hheld, fun _ _ => hJ, fun _ h => by cases h⟩

theorem does_readList {l : ListId} {Q : α → Assertion} (firm : Firm c J)
    (may : ∀ trail s, J trail s → Safe c.document c.arena s → May c trail s l .read)
    (f : Store → α)
    (h : ∀ trail s, J (trail ++ [(s, s)]) s → Safe c.document c.arena s →
      Q (f s) (trail ++ [(s, s)]) s) :
    Does c [] J (.guarded (.list l) .read (Action.read f)) Q :=
  does_guarded firm.stable may (does_read firm h)

theorem does_snapshot {l : ListId} {Q : List Value → Assertion} (firm : Firm c J)
    (may : ∀ trail s, J trail s → Safe c.document c.arena s → May c trail s l .read)
    (h : ∀ trail s, J (trail ++ [(s, s)]) s → Safe c.document c.arena s →
      Q (s.list l).items (trail ++ [(s, s)]) s) : Does c [] J l.snapshot Q :=
  does_readList firm may _ h

/-! ## Arguments -/

theorem does_toArgument {v : Value} {Q : String → Assertion}
    (h : ∀ text, v.toArgument = .ok text → ∀ trail s, J trail s → Q text trail s) :
    Does c held J (ofExcept v.toArgument) Q :=
  does_ofExcept h fun _ herror _ _ _ => Value.granted_toArgument _ _ herror

/-- What the texts are that a value has given: a list has given the texts of what it held
at some moment, and a source those of what was left in it. -/
inductive Took (trail : List (Store × Store)) : Value → List String → Prop where
  | nothing : Took trail .null []
  | one {v : Value} {text : String} (alone : v.isArgument) (h : v.toArgument = .ok text) :
      Took trail v [text]
  | plain {v : Value} {items : List Value} {texts : List String} (holds : v.items = .plain items)
      (h : Value.toArguments items = .ok texts) : Took trail v texts
  | list {v : Value} {l : ListId} {step : Store × Store} {texts : List String}
      (holds : v.items = .list l) (hstep : step ∈ trail)
      (h : Value.toArguments (step.1.list l).items = .ok texts) : Took trail v texts
  | source {v : Value} {id : SourceId} {step : Store × Store} {texts : List String}
      (holds : v.items = .source id) (hstep : step ∈ trail)
      (h : Value.takeArguments (step.1.source id).items = (texts, none)) : Took trail v texts

theorem Took.note {trail : List (Store × Store)} {v : Value} {texts : List String}
    (h : Took trail v texts) (step : Store × Store) : Took (trail ++ [step]) v texts := by
  cases h with
  | nothing => exact .nothing
  | one alone h => exact .one alone h
  | plain holds h => exact .plain holds h
  | list holds hstep h => exact .list holds (List.mem_append_left _ hstep) h
  | source holds hstep h => exact .source holds (List.mem_append_left _ hstep) h

theorem firm_took (v : Value) (texts : List String) : Firm c fun trail _ => Took trail v texts :=
  firm_past fun _ step h => h.note step

theorem does_source {Q : α → Assertion} (firm : Firm c J) (id : SourceId) {f : Store → α × Store}
    (change : ∀ s : Store, (f s).2 = s ∨ ∃ g, (f s).2 = s.modifySource id g)
    (h : ∀ trail s, J (trail ++ [(s, (f s).2)]) (f s).2 → Q (f s).1 (trail ++ [(s, (f s).2)]) (f s).2) :
    Does c held J (.update f) Q := by
  refine does_quiet firm (fun s => ?_) (fun s => ?_) fun trail s hJ _ => h trail s hJ
  · rcases change s with heq | ⟨g, heq⟩ <;> rw [heq]
    · exact .refl s
    · exact .of_lists rfl rfl rfl rfl rfl rfl
  · rcases change s with heq | ⟨g, heq⟩ <;> rw [heq]
    rfl

theorem does_close (firm : Firm c J) (id : SourceId) :
    Does c held J id.close fun _ => J := by
  have marked (f : Source → Source) :
      Does c held J (.modify fun s => s.modifySource id f) fun _ => J :=
    does_source (f := fun s => ((), s.modifySource id f)) firm id (fun s => .inr ⟨f, rfl⟩)
      fun _ _ hJ => hJ
  refine does_bind (does_read (Q := fun _ => J) firm fun _ _ hJ _ => hJ) fun source => ?_
  split
  · exact does_pure fun _ _ hJ => hJ
  · refine does_bind (marked _) fun _ => does_bind (does_request id) fun _ => ?_
    refine does_bind (marked _) fun _ => ?_
    split
    · exact does_pure fun _ _ hJ => hJ
    · exact does_fail rfl

private theorem does_takeArguments (firm : Firm c J) {v : Value} {id : SourceId}
    (holds : v.items = .source id) :
    Does c held J id.takeArguments fun r trail s => J trail s ∧
      (∀ texts, r = .ok texts → Took trail v texts) ∧
        ∀ fault, r = .error fault → fault.isBorrow = false := by
  refine does_source firm id (fun s => ?_) fun trail s hJ => ⟨hJ, ?_⟩
  · dsimp only
    split
    · exact .inl rfl
    · split <;> exact .inr ⟨_, rfl⟩
  · have last (after : Store) : (s, after) ∈ trail ++ [(s, after)] :=
      List.mem_append_right _ (List.mem_singleton_self _)
    constructor
    · intro texts heq
      refine .source holds (last _) ?_
      dsimp only at heq
      split at heq
      · cases heq
      · split at heq
        · cases heq
        · next texts' htake =>
            cases heq
            exact htake
    · intro fault heq
      dsimp only at heq
      split at heq
      · cases heq
        rfl
      · split at heq
        · next htake =>
            cases heq
            exact Value.isBorrow_takeArguments htake
        · cases heq

theorem does_arguments (firm : Firm c J) {v : Value}
    (offers : ∀ trail s, J trail s → s.Offers c.stake.borrows v) :
    Does c [] J v.arguments fun texts trail s => J trail s ∧ Took trail v texts := by
  rw [Value.arguments.eq_def]
  split
  · exact does_pure fun _ _ hJ => ⟨hJ, .nothing⟩
  · split
    · next alone =>
        refine does_bind (R := fun text trail s => J trail s ∧ Took trail v [text]) ?_ fun text => ?_
        · exact does_toArgument fun text h trail s hJ => ⟨hJ, .one alone h⟩
        · exact does_pure fun _ _ h => h
    · split
      · next items holds =>
          exact does_ofExcept (fun texts h trail s hJ => ⟨hJ, .plain holds h⟩)
            fun _ herror _ _ _ => Value.granted_toArguments _ _ herror
      · next l holds =>
          have may (trail : List (Store × Store)) (s : Store) (hJ : J trail s) :
              May c trail s l .read := by
            have hoffers := offers trail s hJ
            rw [Value.items.eq_def] at holds
            split at holds <;> cases holds <;>
              first | exact hoffers.imp_right .inr | exact .inl hoffers
          refine does_bind (R := fun items trail s => J trail s ∧
            ∀ texts, Value.toArguments items = .ok texts → Took trail v texts) ?_ fun items => ?_
          · refine does_snapshot firm (fun trail s hJ _ => may trail s hJ) ?_
            intro trail s hJ _
            exact ⟨hJ, fun texts h => .list holds (List.mem_append_right _ (List.mem_singleton_self _)) h⟩
          · exact does_ofExcept (fun texts h trail s hJ => ⟨hJ.1, hJ.2 texts h⟩)
              fun _ herror _ _ _ => Value.granted_toArguments _ _ herror
      · next id holds =>
          refine does_bind (does_takeArguments firm holds) fun r => ?_
          refine does_bind (R := fun texts trail s => J trail s ∧ Took trail v texts) ?_ fun texts => ?_
          · exact does_ofExcept (fun texts h trail s hJ => ⟨hJ.1, hJ.2.1 texts h⟩)
              fun fault h trail s hJ => hJ.2.2 fault h
          · refine does_bind (does_close (firm.and (firm_took v texts)) id) fun _ => ?_
            exact does_pure fun _ _ h => h
      · exact does_fail rfl

/-! ## Attributes -/

theorem does_storedMember {v : Value} {name : String} {Q : Value → Assertion} (firm : Firm c J)
    (h : ∀ trail s w, J (trail ++ [(s, s)]) s → Safe c.document c.arena s →
      v.field? s name = some w → Q w (trail ++ [(s, s)]) s) :
    Does c held J (v.storedMember name) Q := by
  refine does_bind (R := fun found trail s => ∀ w, found = some w → Q w trail s) ?_ fun found => ?_
  · refine does_read firm fun trail s hJ hsafe w hw => h trail s w hJ hsafe ?_
    rw [← hw, Value.stored?_of_unassigned hsafe.unassigned]
  · cases found with
    | some w => exact does_pure fun _ _ hQ => hQ w rfl
    | none => exact does_fail rfl

theorem field_name {s : Store} {v w : Value} (h : v.field? s "name" = some w) :
    ∃ text, w = .text text := by
  cases v with
  | object o =>
      cases o <;>
        simp [Value.field?, Object.field?, Object.fixedField?, Object.node?, Node.partNamed?,
          Node.parts, Part.name, Slot.all, Slot.fieldName, Node.field?] at h <;>
        exact ⟨_, h.symm⟩
  | _ => simp [Value.field?] at h <;> exact ⟨_, h.symm⟩

/-! ## Handles -/

theorem does_handleStatements {h : Handle} (firm : Firm c J) :
    Does c held J h.statements fun place trail s => J trail s ∧ place = .object (.arena h.arena) := by
  refine does_read firm fun trail s hJ hsafe => ⟨hJ, ?_⟩
  rw [Value.stored?_of_unassigned hsafe.unassigned]
  rfl

theorem does_statement {h : Handle} {Q : Value → Assertion} (firm : Firm c J)
    (shares : ∀ trail s, J trail s → s.Shares h.arena.statements)
    (hQ : ∀ trail s w, J (trail ++ [(s, s)]) s →
      Value.listItem (s.list h.arena.statements).items (.int h.index) = .ok w →
      h.expected.admits w → Q w (trail ++ [(s, s)]) s) : Does c [] J h.statement Q := by
  refine does_bind (does_handleStatements firm) fun statements => ?_
  refine does_bind (R := fun index trail s => (J trail s ∧ statements = .object (.arena h.arena)) ∧
    index = .int h.index) ?_ fun index => ?_
  · refine does_read (firm.and (firm_pure _)) fun trail s hJ hsafe => ⟨hJ, ?_⟩
    rw [Value.stored?_of_unassigned hsafe.unassigned]
    rfl
  · intro g s hheld hJ
    obtain ⟨⟨hJ, rfl⟩, rfl⟩ := hJ
    refine does_bind (J := J) (R := fun w trail s => h.expected.admits w → Q w trail s) ?_
      (fun w => ?_) g s hheld hJ
    · refine does_guarded firm.stable (fun trail s hJ _ => .inl (shares trail s hJ)) ?_
      refine does_bind (R := fun items trail s => ∀ w, Value.listItem items (.int h.index) = .ok w →
        h.expected.admits w → Q w trail s) ?_ fun items => ?_
      · exact does_read firm fun trail s hJ _ w hw => hQ trail s w hJ hw
      · exact does_ofExcept (fun w hw _ _ hJ => hJ w hw)
          fun _ herror _ _ _ => Value.granted_itemIn _ _ _ _ _ _ herror
    · split
      · next admits => exact does_pure fun _ _ hQ => hQ admits
      · exact does_fail rfl

/-- What the name of a value was; the name of a handle is that of the item it led to. -/
inductive Called (trail : List (Store × Store)) : Value → String → Prop where
  | own {v : Value} {step : Store × Store} {text : String} (hstep : step ∈ trail)
      (h : v.field? step.1 "name" = some (.text text)) : Called trail v text
  | item {h : Handle} {w : Value} {step : Store × Store} {text : String} (hstep : step ∈ trail)
      (hw : Value.listItem (step.1.list h.arena.statements).items (.int h.index) = .ok w)
      (called : Called trail w text) : Called trail (.object (.handle h)) text

theorem Called.note {trail : List (Store × Store)} {v : Value} {text : String}
    (h : Called trail v text) (step : Store × Store) : Called (trail ++ [step]) v text := by
  induction h with
  | own hstep h => exact .own (List.mem_append_left _ hstep) h
  | item hstep hw _ ih => exact .item (List.mem_append_left _ hstep) hw ih

theorem mem_note (trail : List (Store × Store)) (step : Store × Store) :
    step ∈ trail ++ [step] := List.mem_append_right _ (List.mem_singleton_self _)

private theorem does_storedName (firm : Firm c J) (v : Value) :
    Does c held J (v.storedMember "name") fun w trail s =>
      J trail s ∧ ∃ text, w = .text text ∧ Called trail v text := by
  refine does_storedMember firm fun trail s w hJ _ hw => ⟨hJ, ?_⟩
  obtain ⟨text, rfl⟩ := field_name hw
  exact ⟨text, rfl, .own (mem_note ..) hw⟩

theorem does_name (firm : Firm c J) {v : Value}
    (offers : ∀ trail s, J trail s → s.Offers c.stake.borrows v) :
    Does c [] J (v.member "name") fun w trail s =>
      J trail s ∧ ∃ text, w = .text text ∧ Called trail v text := by
  rw [Value.member.eq_def]
  split
  · next h =>
      rw [Handle.member]
      split
      · next computed =>
          -- Only handles that insist on a rule or a pool have the name of their statement.
          have forwards : h.expected.forwards "name" = true := by
            simpa [Expected.computes] using computed
          refine does_bind (R := fun w trail s => J trail s ∧ ∃ step ∈ trail,
            Value.listItem (step.1.list h.arena.statements).items (.int h.index) = .ok w) ?_ fun w => ?_
          · refine does_statement firm offers fun trail s w hJ hw _ => ⟨hJ, _, mem_note .., hw⟩
          · rw [if_pos forwards]
            have past : Firm c fun trail _ => ∃ step ∈ trail,
                Value.listItem (step.1.list h.arena.statements).items (.int h.index) = .ok w := by
              refine firm_past fun trail step found => ?_
              obtain ⟨old, hold, hw⟩ := found
              exact ⟨old, List.mem_append_left _ hold, hw⟩
            refine does_mono (does_storedName (firm.and past) w) (fun _ _ hJ => hJ) ?_
            rintro w' trail s ⟨⟨hJ, step, hstep, hw⟩, text, rfl, called⟩
            exact ⟨hJ, text, rfl, .item hstep hw called⟩
      · exact does_storedName firm _
  · exact does_storedName firm _

end

end NinjaFile.Sharing
