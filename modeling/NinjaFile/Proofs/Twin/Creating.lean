import NinjaFile.Proofs.Twin.Logging
import NinjaFile.Proofs.Twin.Making

/-!
# Documents that join twins

A document may be made for a single owner on one side and for several threads on the
other one.  It is the same document, with lists that are empty on both sides, and all that
tells the sides apart is the ownership that the log names.
-/

namespace NinjaFile

open Action Program

namespace Store

variable {s t : Store} {l : ListId} {n : Node}

/-! ## An empty list for a document -/

/-- A list that is no place and holds nothing. -/
structure Blank (s : Store) (l : ListId) : Prop extends s.Loose l where
  empty : (s.list l).items = []

theorem Tidy.blank_insertList (h : s.Tidy) (ownership : Ownership) (blocking : Bool) :
    (s.insertList (.make ownership blocking [])).2.Blank ⟨s.lists.size⟩ where
  toLoose := h.loose_insertList _
  empty := by
    rw [list_insertList, if_pos rfl]
    rfl

/-- The store with one more list, which holds a binding. -/
def lined (s : Store) (ownership : Ownership) (b : Binding) : Store :=
  { s.grown ownership 1 with serial := s.serial + 1 }.modifyList ⟨s.lists.size⟩
    (·.append [.object (.binding s.serial b)])

namespace Blank

theorem lined (h : s.Blank l) (ownership : Ownership) (b : Binding) :
    (s.lined ownership b).Blank l where
  known := by
    rw [Store.lined, size_modifyList]
    exact Nat.lt_of_lt_of_le h.known (by simp [grown, insertList])
  free x hx := by
    have spot : (s.lined ownership b).spot x = s.spot x :=
      (spot_modifyList ..).trans (Tidy.spot_grown s ownership 1 x)
    rw [spot]
    exact h.free x hx
  empty := by
    have hne : (⟨s.lists.size⟩ : ListId) ≠ l := by
      rintro rfl
      exact Nat.lt_irrefl _ h.known
    have old : (s.grown ownership 1).list l = s.list l :=
      (list_insertList ..).trans (if_neg (Nat.ne_of_lt h.known))
    rw [Store.lined, items_append_eq, if_neg fun both => hne both.1]
    exact (congrArg GuardedList.items old).trans h.empty

theorem joins {place : Part → ListId} (h : s.Blank l) (hj : s.Joins n place t)
    (apart : ∀ q ∈ n.parts, place q ≠ l) : t.Blank l where
  known := by
    rw [hj.lists]
    exact h.known
  free x hx := by
    rcases (hj.hasPlace x).mp hx with hx | ⟨q, hq, rfl⟩
    · rw [hj.spot hx]
      exact h.free x hx
    · rw [spot, hj.own q hq]
      exact apart q hq
  empty := by
    rw [hj.list]
    exact h.empty

end Blank

/-- The store with one more rule, as it is made of texts. -/
def ruled (s : Store) (ownership : Ownership) (name command : String) : Store :=
  ((s.lined ownership ⟨"command", command⟩).insertRule ⟨name, ⟨s.lists.size⟩⟩).2

/-- The store with one more pool that is built in. -/
def pooled (s : Store) (ownership : Ownership) (name : String) (depth : Int) : Store :=
  ((s.lined ownership ⟨"depth", toString depth⟩).insertPool ⟨name, ⟨s.lists.size⟩, true⟩).2

namespace Blank

private theorem ne_new (h : s.Blank l) : (⟨s.lists.size⟩ : ListId) ≠ l := by
  rintro rfl
  exact Nat.lt_irrefl _ h.known

theorem ruled (h : s.Blank l) (ownership : Ownership) (name command : String) :
    (s.ruled ownership name command).Blank l :=
  (h.lined ownership _).joins (joins_insertRule _ _) fun _ _ => h.ne_new

theorem pooled (h : s.Blank l) (ownership : Ownership) (name : String) (depth : Int) :
    (s.pooled ownership name depth).Blank l :=
  (h.lined ownership _).joins (joins_insertPool _ _) fun _ _ => h.ne_new

end Blank

theorem kept_insertDocument {r : DocumentRecord} (blank : s.Blank r.arena.statements) :
    s.Kept (s.insertDocument r).2 where
  nodes _ := id
  documents := by simp [insertDocument]
  document d hd := by rw [document_insertDocument, if_neg (Nat.ne_of_lt hd)]
  sources := Nat.le_refl _
  statements d := by
    by_cases hd : s.HasDocument d
    · rw [stated_eq hd, stated_eq ((hasPlace_insertDocument s r (.statements d)).mpr (.inl hd)),
        held_insertDocument (x := .statements d) r hd]
    · rw [stated_eq_nil hd]
      by_cases new : (s.insertDocument r).2.HasDocument d
      · rcases (hasPlace_insertDocument s r (.statements d)).mp new with old | heq
        · exact absurd old hd
        · cases heq
          rw [stated_eq new, held, spot_insertDocument_new]
          exact blank.empty
      · exact stated_eq_nil new
  owners n q hq := by
    rw [owner, spot_insertDocument r hq]
    rfl

end Store

/-! ## Nodes that are built in -/

section BuiltIn

variable (s : Store) (ownership : Ownership) (name value : String)

private theorem alone_lined (key : String) {α : Type} (k : ListId → Action α) :
    alone (do
      let bindings ← ListId.make ownership false []
      let binding ← makeBinding (.text key) (.text value)
      let _ ← bindings.add binding
      k bindings) s = (k ⟨s.lists.size⟩).alone (s.lined ownership ⟨key, value⟩) := by
  refine (alone_bind_ok (Store.alone_listMake ownership s 0) _).trans ?_
  have made : (makeBinding (.text key) (.text value)).alone (s.grown ownership 1) =
      (.ok (.object (.binding s.serial ⟨key, value⟩)),
        { s.grown ownership 1 with serial := s.serial + 1 }) := rfl
  have known := Store.open_insertList s ownership false []
  refine (alone_bind_ok made _).trans ?_
  have opened : Store.Open { s.grown ownership 1 with serial := s.serial + 1 } ⟨s.lists.size⟩ :=
    ⟨known.known, known.free⟩
  exact alone_bind_ok (ListId.alone_add opened _) _

theorem alone_ruleMake :
    (RuleId.make (.text name) (.text value) (.ownership ownership)).alone s =
      (.ok ⟨s.rules.size⟩, s.ruled ownership name value) :=
  alone_lined s ownership value "command" _

theorem alone_poolMake (depth : Int) :
    (PoolId.make (.text name) (.int depth) (.ownership ownership) (.bool true)).alone s =
      (.ok ⟨s.pools.size⟩, s.pooled ownership name depth) :=
  alone_lined s ownership (toString depth) "depth" _

end BuiltIn

namespace Twin

open Store

variable {s s' : Store}

theorem After.insertList (h : s.Twin s') (o o' : Ownership) (blocking : Bool) :
    After Kept s s' (s.insertList (.make o blocking [])).2
      (s'.insertList (.make o' blocking [])).2 := by
  have left := h.left.recast_insertList o blocking []
  have right := h.right.recast_insertList o' blocking []
  exact .of_recast h left right (.of_recast left fun _ _ hq => h.left.owner_insertList hq _)
    (.of_recast right fun _ _ hq => h.right.owner_insertList hq _)

theorem After.lined (h : s.Twin s') (o o' : Ownership) (b : Binding) {n : Node}
    (parts : n.parts = [.bindings]) :
    After Kept s s' (s.lined o b) (s'.lined o' b) ∧
      Rooms (s.lined o b) (s'.lined o' b) n (fun _ => ⟨s.lists.size⟩)
        fun _ => ⟨s'.lists.size⟩ := by
  have bindings : Part.bindings ∈ n.parts := bindings_mem_parts n
  have rooms : Rooms (s.grown o 1) (s'.grown o' 1) n (fun _ => ⟨s.lists.size⟩)
      (fun _ => ⟨s'.lists.size⟩) :=
    rooms_grown h o o' (fun _ => 0) (by simp) (by simp [parts])
  have grown := After.grown h o o' 1
  have serial := After.withSerial grown.twin (n := s.serial + 1) (m := s'.serial + 1)
    (congrArg (· + 1) h.serial)
  have rooms := rooms.looked serial
  have proper : ∀ v ∈ [Value.object (.binding s.serial b)], Part.bindings.admits v := by
    simp [Part.admits]
  have filled := After.fill serial.twin rooms bindings [.object (.binding s.serial b)]
  have rooms := rooms.append bindings proper
  have same : s'.lined o' b = { s'.grown o' 1 with serial := s'.serial + 1 }.modifyList
      ⟨s'.lists.size⟩ (·.append [.object (.binding s.serial b)]) := by rw [Store.lined, h.serial]
  rw [same]
  exact ⟨grown.trans (serial.trans filled), rooms⟩

theorem After.ruled (h : s.Twin s') (o o' : Ownership) (name command : String) :
    After Kept s s' (s.ruled o name command) (s'.ruled o' name command) ∧
      (s.ruled o name command).HasNode (.rule ⟨s.rules.size⟩) := by
  obtain ⟨after, rooms⟩ := After.lined h o o' ⟨"command", command⟩ (n := .rule ⟨s.rules.size⟩) rfl
  have joins := joins_insertRule (s.lined o ⟨"command", command⟩) ⟨name, ⟨s.lists.size⟩⟩
  have joins' := joins_insertRule (s'.lined o' ⟨"command", command⟩) ⟨name, ⟨s'.lists.size⟩⟩
  have fields := (fields_insertRule (s'.lined o' ⟨"command", command⟩) ⟨name, ⟨s'.lists.size⟩⟩).trans
    (fields_insertRule (s.lined o ⟨"command", command⟩) ⟨name, ⟨s.lists.size⟩⟩).symm
  have size : s'.rules.size = s.rules.size := size_eq_of_nodes fun i => h.nodes (.rule ⟨i⟩)
  have size' : (s'.lined o' ⟨"command", command⟩).rules.size = s.rules.size := size
  rw [size'] at joins' fields
  exact ⟨after.trans (.joins after.twin rooms joins joins' fields),
    (joins.nodes _).mpr (.inr rfl)⟩

theorem After.pooled (h : s.Twin s') (o o' : Ownership) (name : String) (depth : Int) :
    After Kept s s' (s.pooled o name depth) (s'.pooled o' name depth) ∧
      (s.pooled o name depth).HasNode (.pool ⟨s.pools.size⟩) := by
  let b : Binding := ⟨"depth", toString depth⟩
  obtain ⟨after, rooms⟩ := After.lined h o o' b (n := .pool ⟨s.pools.size⟩) rfl
  have joins := joins_insertPool (s.lined o b) ⟨name, ⟨s.lists.size⟩, true⟩
  have joins' := joins_insertPool (s'.lined o' b) ⟨name, ⟨s'.lists.size⟩, true⟩
  have fields := (fields_insertPool (s'.lined o' b) ⟨name, ⟨s'.lists.size⟩, true⟩).trans
    (fields_insertPool (s.lined o b) ⟨name, ⟨s.lists.size⟩, true⟩).symm
  have size : s'.pools.size = s.pools.size := size_eq_of_nodes fun i => h.nodes (.pool ⟨i⟩)
  have size' : (s'.lined o' b).pools.size = s.pools.size := size
  rw [size'] at joins' fields
  exact ⟨after.trans (.joins after.twin rooms joins joins' fields),
    (joins.nodes _).mpr (.inr rfl)⟩

/-! ## Documents -/

/-- What is chosen for a document, apart from who may use it. -/
structure Choices where
  enableLogger : Option Bool
  logLevel : Option Int

namespace Choices

/-- The configuration that is handed over, if there is anything to hand over. -/
def config (c : Choices) (threadSafe : Option Bool) : Value :=
  let given (key : String) (v? : Option Value) : List (Value × Value) :=
    (v?.map fun v => (.text key, v)).toList
  match given "thread_safe" (threadSafe.map .bool) ++
      given "enable_logger" (c.enableLogger.map .bool) ++ given "log_level" (c.logLevel.map .int) with
  | [] => .null
  | entries => .mapping entries

def settings (c : Choices) (threadSafe : Bool) : List (String × Value) :=
  [("thread_safe", .bool threadSafe), ("enable_logger", .bool (c.enableLogger.getD false)),
    ("log_level", .int (c.logLevel.getD Logging.debugLevel))]

theorem alone_settings (c : Choices) (threadSafe : Option Bool) (s : Store) :
    (Settings.ofValue (c.config threadSafe) DocumentId.defaultSettings).alone s =
      (.ok (c.settings (threadSafe.getD false)), s) := by
  obtain ⟨_ | enabled, _ | level⟩ := c <;> cases threadSafe <;> rfl

end Choices

/-- The lines that tell that a document was made. -/
def announcement (logging : Logging) (view : View) (o : Ownership) : List String :=
  logging.entry view Logging.debugLevel ("Created document with " ++ o.name ++ " ownership")

/-- The lines that two stores have got are the same, or the last of them name the
ownerships of a document. -/
inductive Announced (o o' : Ownership) (s s' t t' : Store) : Prop where
  | same (new : List String) (left : t.logging.lines = s.logging.lines ++ new)
      (right : t'.logging.lines = s'.logging.lines ++ new)
  | made (new : List String) (logging : Logging) (view : View)
      (left : t.logging.lines = s.logging.lines ++ new ++ announcement logging view o)
      (right : t'.logging.lines = s'.logging.lines ++ new ++ announcement logging view o')

/-- The store with the lists and nodes of a document that is not there yet. -/
private def furnished (s : Store) (o : Ownership) : Store :=
  (((s.insertList (.make o true [])).2.ruled o DocumentId.phonyName "").pooled o
    DocumentId.consoleName 1)

private theorem blank_furnished (h : s.Tidy) (o : Ownership) :
    (furnished s o).Blank ⟨s.lists.size⟩ :=
  ((h.blank_insertList o true).ruled o _ _).pooled o _ _

private theorem After.furnished (h : s.Twin s') (o o' : Ownership) :
    After Kept s s' (furnished s o) (furnished s' o') ∧
      (furnished s o).HasNode (.rule ⟨s.rules.size⟩) ∧
      (furnished s o).HasNode (.pool ⟨s.pools.size⟩) := by
  have list := After.insertList h o o' true
  obtain ⟨rule, phony⟩ := After.ruled list.twin o o' DocumentId.phonyName ""
  obtain ⟨pool, console⟩ := After.pooled rule.twin o o' DocumentId.consoleName 1
  exact ⟨list.trans (rule.trans pool), pool.left.nodes _ phony, console⟩

/-- What remains to be done for a document when there is a view. -/
private def establish (o : Ownership) (settings : List (String × Value)) (view : View) :
    Action DocumentId := do
  let arena ← Arena.make o (some view)
  let phony ← RuleId.make (.text DocumentId.phonyName) (.text "") (.ownership o)
  let console ← PoolId.make (.text DocumentId.consoleName) (.int 1) (.ownership o) (.bool true)
  view.log Logging.debugLevel ("Created document with " ++ o.name ++ " ownership")
  .update fun s => s.insertDocument ⟨settings, arena, phony, console⟩

private theorem alone_make (c : Choices) (threadSafe : Option Bool) (s : Store) :
    (DocumentId.make (c.config threadSafe)).alone s =
      (View.ofSettings [("name", .text DocumentId.loggerName),
          ("is_enabled", .bool (c.enableLogger.getD false)),
          ("level", .int (c.logLevel.getD Logging.debugLevel)),
          ("format", .text Logging.defaultFormat)] >>=
        establish (DocumentId.ownershipOf (threadSafe.getD false))
          (c.settings (threadSafe.getD false))).alone s :=
  (alone_bind_ok (c.alone_settings threadSafe s) _).trans
    (alone_bind_ok (a := threadSafe.getD false) rfl _)

/-- The record of a document that is made now. -/
private def establishedRecord (s : Store) (o : Ownership) (settings : List (String × Value))
    (view : View) : DocumentRecord :=
  ⟨settings, ⟨o, ⟨s.lists.size⟩, some view⟩, ⟨s.rules.size⟩, ⟨s.pools.size⟩⟩

private theorem alone_establish (h : (furnished s o).Tidy) (settings : List (String × Value))
    (view : View) :
    (establish o settings view).alone s =
      (.ok ⟨s.documents.size⟩,
        ({ furnished s o with
            logging := (furnished s o).logging.log view Logging.debugLevel
              ("Created document with " ++ o.name ++ " ownership") }.insertDocument
          (establishedRecord s o settings view)).2) := by
  have arena : (Arena.make o (some view)).alone s =
      (.ok ⟨o, ⟨s.lists.size⟩, some view⟩, (s.insertList (.make o true [])).2) := rfl
  refine (alone_bind_ok arena _).trans ?_
  refine (alone_bind_ok (alone_ruleMake _ o DocumentId.phonyName "") _).trans ?_
  refine (alone_bind_ok (alone_poolMake _ o DocumentId.consoleName 1) _).trans ?_
  exact alone_bind_ok (alone_log h view _ _) _

/-- With a view at hand the same document is made on either side. -/
private theorem establish_twins (h : s.Twin s') (c : Choices) (flag flag' : Bool) (view : View)
    {o o' : Ownership} :
    ∃ d t t', (establish o (c.settings flag) view).alone s = (.ok d, t) ∧
      (establish o' (c.settings flag') view).alone s' = (.ok d, t') ∧ t.Twin t' ∧ s.Kept t ∧
      s'.Kept t' ∧ t.HasDocument d ∧ ∃ new logging,
        t.logging.lines = s.logging.lines ++ new ++ announcement logging view o ∧
        t'.logging.lines = s'.logging.lines ++ new ++ announcement logging view o' := by
  obtain ⟨made, phony, console⟩ := After.furnished h o o'
  obtain ⟨new, left, right⟩ := made.lines
  -- The announcements differ, but neither of them says anything to the loggers.
  let text (o : Ownership) : String := "Created document with " ++ o.name ++ " ownership"
  let said (s : Store) (o : Ownership) : Store :=
    { furnished s o with
      logging := (furnished s o).logging.log view Logging.debugLevel (text o) }
  have told (s : Store) (o : Ownership) : (furnished s o).Still (said s o) := ⟨_, _, _, _, rfl, rfl⟩
  have twin : (said s o).Twin (said s' o') := made.twin.withLogging <| by
    rw [Logging.log_eq, Logging.log_eq]
    exact made.twin.loggers
  have blank (s : Store) (h : s.Tidy) (o : Ownership) : (said s o).Blank ⟨s.lists.size⟩ :=
    ⟨⟨(blank_furnished h o).known, (blank_furnished h o).free⟩, (blank_furnished h o).empty⟩
  have blankLeft := blank s h.left o
  have blankRight := blank s' h.right o'
  have rules : s'.rules.size = s.rules.size := size_eq_of_nodes fun i => h.nodes (.rule ⟨i⟩)
  have pools : s'.pools.size = s.pools.size := size_eq_of_nodes fun i => h.nodes (.pool ⟨i⟩)
  have like : LikeDocument (establishedRecord s o (c.settings flag) view)
      (establishedRecord s' o' (c.settings flag') view) :=
    ⟨.intro _ _ _, rfl, congrArg RuleId.mk rules, congrArg PoolId.mk pools⟩
  have number : (⟨s'.documents.size⟩ : DocumentId) = ⟨s.documents.size⟩ :=
    congrArg DocumentId.mk h.documents
  rw [alone_establish made.twin.left, alone_establish made.twin.right, number]
  refine ⟨_, _, _, rfl, rfl, twin.insertDocument like phony console blankLeft.toLoose
      blankRight.toLoose blankLeft.empty blankRight.empty,
    made.left.trans ((told s o).kept.trans (kept_insertDocument blankLeft)),
    made.right.trans ((told s' o').kept.trans (kept_insertDocument blankRight)),
    (hasPlace_insertDocument _ _ (.statements _)).mpr (.inr rfl), new, (furnished s o).logging,
    ?_, ?_⟩
  · rw [← left]
    exact congrArg Logging.lines (Logging.log_eq ..)
  · rw [announcement, ← Logging.entry_congr made.twin.loggers, ← right]
    exact congrArg Logging.lines (Logging.log_eq ..)

/-- The same document is made on either side, whoever may use it. -/
theorem documentMake (h : s.Twin s') (c : Choices) (flag flag' : Option Bool) :
    ∃ r t t', (DocumentId.make (c.config flag)).alone s = (r, t) ∧
      (DocumentId.make (c.config flag')).alone s' = (r, t') ∧ t.Twin t' ∧ s.Kept t ∧ s'.Kept t' ∧
      (∀ d, r = .ok d → t.HasDocument d) ∧
      Announced (DocumentId.ownershipOf (flag.getD false))
        (DocumentId.ownershipOf (flag'.getD false)) s s' t t' := by
  rw [alone_make, alone_make, alone_bind, alone_bind]
  have viewed := inStep_ofSettings h DocumentId.loggerName Logging.defaultFormat
    (c.enableLogger.getD false) (c.logLevel.getD Logging.debugLevel)
  rw [InStep] at viewed
  generalize alone _ s = r at viewed ⊢
  generalize alone _ s' = r' at viewed ⊢
  cases viewed with
  | @error fault t t' after =>
      obtain ⟨new, left, right⟩ := after.lines
      refine ⟨_, t, t', rfl, rfl, after.twin, after.left.kept, after.right.kept, ?_,
        .same new left right⟩
      rintro _ ⟨⟩
  | @ok _ view u u' after heq =>
      subst heq
      obtain ⟨before, left, right⟩ := after.lines
      obtain ⟨d, t, t', made, made', twin, kept, kept', known, new, logging, more, more'⟩ :=
        establish_twins after.twin c (flag.getD false) (flag'.getD false) view
      refine ⟨.ok d, t, t', made, made', twin, after.left.kept.trans kept,
        after.right.kept.trans kept', ?_, .made (before ++ new) logging view ?_ ?_⟩
      · rintro _ ⟨⟩
        exact known
      · rw [more, left, List.append_assoc s.logging.lines]
      · rw [more', right, List.append_assoc s'.logging.lines]

end Twin

end NinjaFile
