import NinjaFile.Proofs.Frame.Moving

/-!
# Inserting among others

Whatever is inserted into a document is a statement that has been made, and the handle that
is given back leads into the document.
-/

namespace NinjaFile

open Store Program Script

namespace Housing

variable {α : Type} {d : DocumentId} {h : Handle} {n : Node} {v : Value} {s : Store}

/-! ## What suits a document -/

theorem suits_node (has : s.HasNode n) : s.Suits (.statements d) n.toValue := by
  refine ⟨.ofNode n, rfl, by cases n <;> rfl, fun m hm => ?_⟩
  obtain rfl : n = m := by simpa using hm
  exact has

theorem suits_plain {o : Object} (kind : o.kind?.isSome) (plain : o.node? = none) :
    s.Suits (.statements d) (.object o) :=
  ⟨o, rfl, kind, fun n hn => by rw [plain] at hn; cases hn⟩

/-! ## Programs with nothing in stock -/

theorem does_making {P : Assertion} (lasting : Lasting P) {p : Action α} {Q : α → Assertion}
    (h : Does (Stock []) p fun x trail s => Stock [] trail s ∧ Q x trail s) :
    Does P p fun x trail s => Q x trail s ∧ P trail s :=
  (does_along lasting (fun _ _ _ => stock_nil) h).post fun _ _ _ h => ⟨h.1.2, h.2⟩

/-! ## Insertions that give a handle -/

/-- The handle leads into the document and is for statements of a kind. -/
def Gives (d : DocumentId) (expected : Expected) (h : Handle) : Assertion := fun _ s =>
  s.Leads h d ∧ h.expected = expected

theorem does_documentInsert (d : DocumentId) (expected : Expected) (v : Value) :
    Does (fun _ s => s.HasDocument d ∧ s.Suits (.statements d) v) (d.insert expected v)
      (Gives d expected) :=
  does_atDocument (lasting_suits _ v) fun a => does_insert a d expected v

theorem does_handleInsert (h : Handle) (d : DocumentId) (expected : Expected) (v : Value) :
    Does (fun _ s => s.Leads h d ∧ s.Suits (.statements d) v)
      (h.statements >>= fun place => place.insert expected v) (Gives d expected) :=
  does_atHandle (lasting_suits _ v) (does_insert h.arena d expected v)

theorem does_rule (d : DocumentId) (name command : Value) :
    Does (fun _ s => s.HasDocument d) (d.rule name command) (Gives d .rule) := by
  refine does_bind (does_making (lasting_hasDocument d) (does_ruleMake name command _)) fun r => ?_
  exact (does_documentInsert d .rule _).pre fun _ _ h => ⟨h.2, suits_node h.1⟩

theorem does_pool (d : DocumentId) (name depth : Value) :
    Does (fun _ s => s.HasDocument d) (d.pool name depth) (Gives d .pool) := by
  refine does_bind (does_making (lasting_hasDocument d) (does_poolMake name depth _ false)) fun p => ?_
  exact (does_documentInsert d .pool _).pre fun _ _ h => ⟨h.2, suits_node h.1⟩

theorem does_phony (d : DocumentId) (outputs : Value) :
    Does (fun _ s => s.HasDocument d) (d.phony outputs) (Gives d .build) := by
  have member : (d.toValue.member "phony_rule").Every Light :=
    every_aside (looks_member _ (by decide) (by decide)).aside
  refine does_bind (does_every (lasting_hasDocument d).firm member) fun rule => ?_
  refine does_bind (does_making (lasting_hasDocument d) (does_buildMake rule outputs _)) fun b => ?_
  exact (does_documentInsert d .build _).pre fun _ _ h => ⟨h.2, suits_node h.1⟩

private theorem does_passOn {k : Value → Action α} {Q : α → Assertion}
    (hk : ∀ ownership, Does (fun _ s => s.Leads h d) (k ownership) Q) :
    Does (fun _ s => s.Leads h d)
      (h.statements >>= fun place => place.member "ownership" >>= k) Q := by
  have firm := (lasting_leads h d).firm
  refine does_bind (does_every firm (every_aside (looks_handleStatements h).aside)) fun place => ?_
  have member : (place.member "ownership").Every Light :=
    every_aside (looks_member _ (by decide) (by decide)).aside
  exact does_bind (does_every firm member) hk

theorem does_handleBuild (h : Handle) (d : DocumentId) (outputs : Value) :
    Does (fun _ s => s.Leads h d) (h.build outputs) (Gives d .build) := by
  refine does_passOn fun ownership => ?_
  refine does_bind (does_making (lasting_leads h d) (does_buildMake h.toValue outputs ownership))
    fun b => ?_
  exact (does_handleInsert h d .build _).pre fun _ _ h => ⟨h.2, suits_node h.1⟩

theorem does_handleRule (h : Handle) (d : DocumentId) (name command : Value) :
    Does (fun _ s => s.Leads h d) (h.rule name command) (Gives d .rule) := by
  refine does_passOn fun ownership => ?_
  refine does_bind (does_making (lasting_leads h d) (does_ruleMake name command ownership))
    fun r => ?_
  have lasting := (lasting_hasNode (.rule r)).and (lasting_leads h d)
  refine does_bind (does_along lasting (fun _ _ h => h.1) (does_usePool (.node (.rule r)) h.toValue))
    fun _ => ?_
  exact (does_handleInsert h d .rule _).pre fun _ _ h => ⟨h.2.2, suits_node h.2.1⟩

/-- What an insertion is about is there. -/
def Insertion.Fits (s : Store) : Insertion → Prop
  | .rule d .. | .phony d _ | .pool d .. => s.HasDocument d
  | .addRule d r => s.HasDocument d ∧ s.HasNode (.rule r)
  | .addBuild d b => s.HasDocument d ∧ s.HasNode (.build b)
  | .addPool d p => s.HasDocument d ∧ s.HasNode (.pool p)
  | .buildBy h _ | .ruleBy h .. => ∃ d, s.Leads h d

theorem does_insertion (i : Insertion) :
    Does (fun _ s => Insertion.Fits s i) i.program fun h _ s => ∃ d, s.Leads h d := by
  have gives {p : Action Handle} {J : Assertion} {d : DocumentId} {expected : Expected}
      (h : Does J p (Gives d expected)) : Does J p fun h _ s => ∃ d, s.Leads h d :=
    h.post fun _ _ _ h => ⟨d, h.1⟩
  have add (d : DocumentId) (expected : Expected) (n : Node) :
      Does (fun _ s => s.HasDocument d ∧ s.HasNode n) (d.insert expected n.toValue)
        (Gives d expected) :=
    (does_documentInsert d expected _).pre fun _ _ h => ⟨h.1, suits_node h.2⟩
  cases i with
  | rule d name command => exact gives (does_rule d name command)
  | addRule d r => exact gives (add d .rule (.rule r))
  | phony d outputs => exact gives (does_phony d outputs)
  | addBuild d b => exact gives (add d .build (.build b))
  | pool d name depth => exact gives (does_pool d name depth)
  | addPool d p => exact gives (add d .pool (.pool p))
  | buildBy h outputs => exact does_exists fun d => gives (does_handleBuild h d outputs)
  | ruleBy h name command => exact does_exists fun d => gives (does_handleRule h d name command)

/-! ## Statements without lists -/

theorem does_makePlain (f : Serial → Object) (kind : ∀ n, (f n).kind?.isSome)
    (plain : ∀ n, (f n).node? = none) :
    Does (fun _ s => s.HasDocument d) (makeObject f)
      fun v _ s => s.HasDocument d ∧ s.Suits (.statements d) v := by
  refine (does_makeObject (lasting_hasDocument d).firm f).post ?_
  rintro _ _ _ ⟨has, n, rfl⟩
  exact ⟨has, suits_plain (kind n) (plain n)⟩

theorem does_say (d : DocumentId) {make : Action Value} (hmake : Does (fun _ s => s.HasDocument d) make
      fun v _ s => s.HasDocument d ∧ s.Suits (.statements d) v) :
    Does (fun _ s => s.HasDocument d) (make >>= d.add) fun _ _ _ => True :=
  does_bind hmake fun v => does_atDocument (lasting_suits _ v) fun a =>
    does_bind (does_arenaAppend a d v) fun _ => does_pure fun _ _ _ h => h

private theorem does_sayText (d : DocumentId) (v : Value) (f : String → Serial → Object)
    (kind : ∀ text n, (f text n).kind?.isSome) (plain : ∀ text n, (f text n).node? = none) :
    Does (fun _ s => s.HasDocument d)
      ((ofExcept v.toArgument >>= fun text => makeObject (f text)) >>= d.add) fun _ _ _ => True :=
  does_say d <| does_bind (does_ofExcept (Q := fun _ _ s => s.HasDocument d) fun _ _ _ _ _ h => h)
    fun text => does_makePlain (f text) (kind text) (plain text)

theorem does_comment (d : DocumentId) (text : Value) :
    Does (fun _ s => s.HasDocument d) (d.comment text) fun _ _ _ => True :=
  does_sayText d text (fun text n => .comment n text) (fun _ _ => rfl) fun _ _ => rfl

theorem does_subninja (d : DocumentId) (path : Value) :
    Does (fun _ s => s.HasDocument d) (d.subninja path) fun _ _ _ => True :=
  does_sayText d path (fun path n => .subninja n path) (fun _ _ => rfl) fun _ _ => rfl

theorem does_inclusion (d : DocumentId) (path : Value) :
    Does (fun _ s => s.HasDocument d) (d.inclusion path) fun _ _ _ => True :=
  does_sayText d path (fun path n => .inclusion n path) (fun _ _ => rfl) fun _ _ => rfl

theorem does_defaults (d : DocumentId) (outputs : Value) :
    Does (fun _ s => s.HasDocument d) (d.defaults outputs) fun _ _ _ => True :=
  does_say d <| does_bind (does_every (lasting_hasDocument d).firm (every_aside (aside_arguments outputs)))
    fun _ => does_makePlain _ (fun _ => rfl) fun _ => rfl

theorem does_binding (d : DocumentId) (name value : Value) :
    Does (fun _ s => s.HasDocument d) (d.binding name value) fun _ _ _ => True := by
  refine does_say d ((does_makeBinding (lasting_hasDocument d).firm name value).post ?_)
  rintro _ _ _ ⟨has, n, b, rfl⟩
  exact ⟨has, suits_plain rfl rfl⟩

end Housing

end NinjaFile
