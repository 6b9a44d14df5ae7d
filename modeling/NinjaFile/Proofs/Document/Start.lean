import NinjaFile.Proofs.Document.Building

/-!
# New documents

A document that has just been made holds nothing yet, and has the rule `phony` and the
pool `console`.
-/

namespace NinjaFile

open Program Store Action

/-- A configuration whose settings are of the types they are meant to have. -/
structure TypedConfig (config : List (Value × Value)) : Prop where
  threadSafe : ∀ v, (Value.text "thread_safe", v) ∈ config → ∃ b, v = .bool b
  enableLogger : ∀ v, (Value.text "enable_logger", v) ∈ config → ∃ b, v = .bool b
  logLevel : ∀ v, (Value.text "log_level", v) ∈ config → ∃ n, v = .int n

namespace Settings

theorem lookup_textEntries {entries : List (Value × Value)} {key : String} {v : Value}
    (h : (textEntries entries).lookup key = some v) : (Value.text key, v) ∈ entries := by
  have mem : (key, v) ∈ textEntries entries := by
    rw [List.lookup_eq_some_iff] at h
    obtain ⟨before, after, heq, -⟩ := h
    rw [heq]
    simp
  obtain ⟨⟨k, w⟩, hmem, heq⟩ := List.mem_filterMap.mp mem
  cases k with
  | text s =>
      cases heq
      exact hmem
  | _ => cases heq

theorem alone_ofMapping (entries : List (Value × Value)) (s : Store) :
    (ofValue (.mapping entries) DocumentId.defaultSettings).alone s =
      (.ok (Configuration.resolve (textEntries entries) DocumentId.defaultSettings), s) := by
  cases entries <;> rfl

end Settings

namespace TypedConfig

variable {config : List (Value × Value)}

/-- The settings that come of a configuration. -/
def settings (config : List (Value × Value)) : List (String × Value) :=
  Configuration.resolve (Settings.textEntries config) DocumentId.defaultSettings

theorem threadSafe_eq (h : TypedConfig config) :
    ∃ b, Settings.value (settings config) "thread_safe" = .bool b := by
  change ∃ b, ((Settings.textEntries config).lookup "thread_safe").getD (.bool false) = _
  cases hlookup : (Settings.textEntries config).lookup "thread_safe" with
  | none => exact ⟨false, rfl⟩
  | some v => exact h.threadSafe v (Settings.lookup_textEntries hlookup)

theorem enableLogger_eq (h : TypedConfig config) :
    ∃ b, Settings.value (settings config) "enable_logger" = .bool b := by
  change ∃ b, ((Settings.textEntries config).lookup "enable_logger").getD (.bool false) = _
  cases hlookup : (Settings.textEntries config).lookup "enable_logger" with
  | none => exact ⟨false, rfl⟩
  | some v => exact h.enableLogger v (Settings.lookup_textEntries hlookup)

theorem logLevel_eq (h : TypedConfig config) :
    ∃ n, Settings.value (settings config) "log_level" = .int n := by
  change ∃ n, ((Settings.textEntries config).lookup "log_level").getD (.int 10) = _
  cases hlookup : (Settings.textEntries config).lookup "log_level" with
  | none => exact ⟨10, rfl⟩
  | some v => exact h.logLevel v (Settings.lookup_textEntries hlookup)

theorem loggerSettings_eq (h : TypedConfig config) :
    ∃ (enabled : Bool) (level : Int), DocumentId.loggerSettings (settings config) =
      [("name", .text DocumentId.loggerName), ("is_enabled", .bool enabled),
        ("level", .int level), ("format", .text Logging.defaultFormat)] := by
  obtain ⟨enabled, henabled⟩ := h.enableLogger_eq
  obtain ⟨level, hlevel⟩ := h.logLevel_eq
  refine ⟨enabled, level, ?_⟩
  rw [DocumentId.loggerSettings, henabled, hlevel]
  rfl

end TypedConfig

/-! ## Loggers -/

namespace Store

/-- Only loggers and serial numbers have gone on. -/
def Logged (s s' : Store) : Prop :=
  ∃ logging serial, s.serial ≤ serial ∧ s' = { s with logging := logging, serial := serial }

namespace Logged

variable {s s' s'' : Store}

theorem refl (s : Store) : s.Logged s := ⟨_, _, Nat.le_refl _, rfl⟩

theorem log (s : Store) (logging : Logging) : s.Logged { s with logging := logging } :=
  ⟨_, _, Nat.le_refl _, rfl⟩

theorem trans (h : s.Logged s') (h' : s'.Logged s'') : s.Logged s'' := by
  obtain ⟨_, n, hn, rfl⟩ := h
  obtain ⟨logging, m, hm, rfl⟩ := h'
  exact ⟨logging, m, Nat.le_trans hn hm, rfl⟩

theorem adds (h : s.Logged s') : s.Adds s' := by
  obtain ⟨logging, n, hn, rfl⟩ := h
  exact (adds_log s logging).trans (adds_serial _ hn)

end Logged

end Store

namespace View

variable {s : Store}

theorem returns_make (name : String) (enabled : Bool) (threshold : Int) :
    Returns (make name (.bool enabled) (.int threshold)) s fun view s' =>
      s.Logged s' ∧ view.serial = s.serial :=
  returns_of_alone (a := ⟨s.serial, name, enabled, threshold⟩) rfl
    ⟨⟨_, _, Nat.le_succ _, rfl⟩, rfl⟩

theorem showsLess_int (own : Whole) (level : Int) : ∃ lower, showsLess own (.int level) = .ok lower := by
  rw [showsLess]
  split
  · exact ⟨true, rfl⟩
  · cases own <;> exact ⟨_, rfl⟩

theorem returns_lowerLevel (s : Store) (name : String) (level : Int) :
    Returns (lowerLevel name (.int level)) s fun _ s' => s.Logged s' := by
  rw [lowerLevel]
  refine returns_bind (returns_of_alone (alone_read _ _) ?_)
  obtain ⟨lower, compared⟩ := showsLess_int (s.logging.ownLevel name) level
  rw [compared]
  refine returns_bind (returns_of_alone (alone_ofExcept _ _) ?_)
  cases lower with
  | true => exact returns_of_alone rfl (.log s _)
  | false => exact returns_pure (.refl s)

theorem returns_bringHandler (s : Store) (name : String) {format : String}
    (isFormat : Logging.isFormat format = true) :
    Returns (bringHandler name (.text format)) s fun _ s' => s.Logged s' := by
  have formatted : Returns (Logging.formatOf (.text format)) s fun _ s' => s' = s := by
    rw [Logging.formatOf]
    refine returns_bind (returns_of_alone (a := (Value.text format).isTrue) rfl ?_)
    simp only [isFormat, if_true]
    split <;> exact returns_pure rfl
  rw [bringHandler]
  refine returns_bind (returns_of_alone (alone_read _ _) ?_)
  split
  · exact returns_pure (.refl s)
  · refine returns_then formatted fun f s' heq => ?_
    subst heq
    exact returns_of_alone rfl (.log _ _)

theorem returns_ofSettings {config : List (Value × Value)} (typed : TypedConfig config) :
    Returns (ofSettings (DocumentId.loggerSettings (TypedConfig.settings config))) s
      fun view s' => s.Logged s' ∧ view.serial = s.serial := by
  obtain ⟨enabled, level, settings⟩ := typed.loggerSettings_eq
  have name : (Logging.nameOf (.text DocumentId.loggerName)).alone s =
      (.ok DocumentId.loggerName, s) := rfl
  rw [settings, ofSettings]
  refine returns_bind (returns_of_alone name ?_)
  refine returns_then (returns_make _ enabled level) fun view s₁ found => ?_
  obtain ⟨hlogged₁, number⟩ := found
  refine returns_bind (returns_of_alone (a := enabled) rfl ?_)
  cases enabled with
  | false => exact returns_pure ⟨hlogged₁, number⟩
  | true =>
      refine returns_then (returns_lowerLevel s₁ _ level) fun _ s₂ hlogged₂ => ?_
      refine returns_then (returns_bringHandler s₂ _ (by decide +kernel)) fun _ s₃ hlogged₃ => returns_pure ?_
      exact ⟨hlogged₁.trans (hlogged₂.trans hlogged₃), number⟩

end View

/-! ## Documents -/

namespace DocumentId

/-- With a new and empty list, the rule and the pool at hand, a document is ready for use. -/
theorem building_insertDocument {s s' : Store} (record : DocumentRecord) (adds : s.Adds s')
    (fresh : s'.Fresh) (late : s.lists.size ≤ record.arena.statements.index)
    (opens : s'.Open record.arena.statements) (empty : (s'.list record.arena.statements).items = [])
    (bareArena : s'.Bare (.arena record.arena.statements))
    (bareView : ∀ view, record.arena.view = some view → s'.Bare view.identity)
    (phony : s'.Named (.rule record.phony) phonyName)
    (console : s'.Named (.pool record.console) consoleName) :
    Building s ⟨s'.documents.size⟩ record.arena [] [] (s'.insertDocument record).2 := by
  have found : (s'.insertDocument record).2.document ⟨s'.documents.size⟩ = record :=
    (Table.get_insert s'.documents _ _).trans (if_pos rfl)
  have unknown : ¬ s'.Knows (.document ⟨s'.documents.size⟩) := Nat.lt_irrefl _
  have ground : Ground s ⟨s'.documents.size⟩ record.arena (s'.insertDocument record).2 := by
    refine ⟨(Beside.of_adds adds).insertDocument record, fun known => unknown (adds.knows known),
      late, fun i hi => fresh i fun known => hi ?_, ?_, ?_, fresh _ unknown, bareArena, bareView, ?_, ?_⟩
    · cases i with
      | document j =>
          refine Nat.lt_of_lt_of_le known ?_
          simp [insertDocument]
      | _ => exact known
    · change s'.documents.size < (s'.insertDocument record).2.documents.size
      simp [insertDocument]
    · rw [found]
    · rw [found]
      exact ⟨phony.has, phony.bare, phony.name⟩
    · rw [found]
      exact ⟨console.has, console.bare, console.name⟩
  exact ⟨ground, ⟨opens.known, opens.free⟩, empty, fun n hn => (List.not_mem_nil hn).elim,
    fun n _ hn => (List.not_mem_nil hn).elim, .nil⟩

/-- A document that has just been made is empty. -/
theorem returns_make {s : Store} (fresh : s.Fresh) {config : List (Value × Value)}
    (typed : TypedConfig config) :
    Returns (make (.mapping config)) s fun d s' => ∃ a, Building s d a [] [] s' := by
  obtain ⟨threadSafe, hthreadSafe⟩ := typed.threadSafe_eq
  rw [make]
  refine returns_bind (returns_of_alone (Settings.alone_ofMapping config s) ?_)
  change Returns ((Settings.value (TypedConfig.settings config) "thread_safe").truth >>= _) s _
  rw [hthreadSafe]
  refine returns_bind (returns_of_alone (a := threadSafe) rfl ?_)
  refine returns_then (View.returns_ofSettings typed) fun view s₁ found => ?_
  obtain ⟨hlogged, number⟩ := found
  have hadds₁ := hlogged.adds
  have bareView : s₁.Bare view.identity :=
    hadds₁.bare (fresh _ (by simp [View.identity, Knows, number]))
  let ownership := ownershipOf threadSafe
  have made : (Arena.make ownership (some view)).alone s₁ =
      (.ok ⟨ownership, ⟨s₁.lists.size⟩, some view⟩,
        (s₁.insertList (.make ownership true [])).2) := rfl
  refine returns_bind (returns_of_alone made ?_)
  have hadds₂ := adds_insertList s₁ (.make ownership true [])
  have fresh₁ := hadds₁.fresh fresh
  refine returns_then (returns_ruleMake ownership phonyName "") fun phony s₃ hphony => ?_
  refine returns_then (returns_poolMake ownership consoleName 1 true) fun console s₄ hconsole => ?_
  have plain : view.isPlain s₄ = true := by
    have := hconsole.adds.bare (hphony.adds.bare (hadds₂.bare bareView))
    simp [View.isPlain, this _]
  rw [View.log]
  refine returns_bind (returns_bind (returns_of_alone (alone_read _ _) ?_))
  rw [if_pos plain]
  refine returns_of_alone (alone_modify _ _) ?_
  refine returns_of_alone (alone_update _ _) ?_
  let a : Arena := ⟨ownership, ⟨s₁.lists.size⟩, some view⟩
  have hadds₅ := adds_log s₄ (s₄.logging.log view Logging.debugLevel
    ("Created document with " ++ ownership.name ++ " ownership"))
  have hadds₃₅ := hconsole.adds.trans hadds₅
  have hadds₂₅ := hphony.adds.trans hadds₃₅
  have hadds₁₅ := hadds₂.trans hadds₂₅
  have opens := open_insertList s₁ ownership true []
  refine ⟨a, building_insertDocument ⟨TypedConfig.settings config, a, phony, console⟩
    (hadds₁.trans hadds₁₅) (hadds₁₅.fresh fresh₁) hadds₁.lists (hadds₂₅.open_ opens) ?_ ?_ ?_ ?_ ?_⟩
  · rw [hadds₂₅.list _ opens.known, list_insertList, if_pos rfl]
    rfl
  · exact hadds₁₅.bare (fresh₁ (.arena ⟨s₁.lists.size⟩) (Nat.lt_irrefl _))
  · rintro other ⟨⟩
    exact hadds₁₅.bare bareView
  · exact Named.adds ⟨hphony.has, hphony.bare (hadds₂.fresh fresh₁), congrArg Prod.fst hphony.reads.1⟩
      hadds₃₅
  · exact Named.adds ⟨hconsole.has, hconsole.bare (hphony.adds.fresh (hadds₂.fresh fresh₁)),
      congrArg Prod.fst hconsole.reads.1⟩ hadds₅

theorem ensures_make {s : Store} (fresh : s.Fresh) {config : List (Value × Value)}
    (typed : TypedConfig config) :
    Ensures (make (.mapping config)) s fun d s' => ∃ a, Building s d a [] [] s' :=
  (returns_make fresh typed).ensures

end DocumentId

end NinjaFile
