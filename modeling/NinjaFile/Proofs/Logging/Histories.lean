import NinjaFile.Proofs.Document.Start
import NinjaFile.Proofs.Layout.Lines
import NinjaFile.Proofs.Logging.Arrangement

/-!
# Histories of loggers

Owners ask for loggers in any number and order, and log by their views in between.  An owner that
is off asks for the name and nothing else.  One that is on also lowers the level, and brings a
handler unless there is one, which fails if no line can be written in its format.  So a logger
keeps the handler that the first owner brings who is on, and a line that a view lets through is
written once by each handler that can be reached.
-/

namespace NinjaFile

open Action Program

/-! ## Settings of an owner -/

namespace Logging

/-- The format of a handler that is made for one. -/
def handlerFormat (format : String) : String := if format = "" then plainFormat else format

/-- Settings of a logger that are of the types they are meant to have; the defaults stand for
those that are left out. -/
structure Request where
  name : Option String
  isEnabled : Option Bool
  level : Option Int
  format : Option String
  named : name ≠ some ""
  notRoot : name ≠ some rootName
deriving DecidableEq

namespace Request

variable (r : Request)

def config : Value :=
  let entries : List (String × Option Value) :=
    [("name", r.name.map .text), ("is_enabled", r.isEnabled.map .bool),
      ("level", r.level.map .int), ("format", r.format.map .text)]
  .mapping (entries.filterMap fun (key, given) => given.map fun v => (.text key, v))

def owner : String := r.name.getD "ninja_writer"
def isOn : Bool := r.isEnabled.getD true
def threshold : Int := r.level.getD debugLevel
def lineFormat : String := r.format.getD defaultFormat

/-- The format of the handler that a logger would get. -/
def brings (name : String) : Option String :=
  if r.isOn ∧ r.owner = name then some (handlerFormat r.lineFormat) else none

/-- Makes a logger with the settings. -/
def action : Action View := do
  View.ofSettings (← Settings.ofValue r.config defaultSettings)

theorem owner_ne_empty : r.owner ≠ "" := by
  have named := r.named
  unfold owner
  cases hname : r.name with
  | none => decide
  | some name =>
      rintro rfl
      exact named hname

theorem owner_ne_root : r.owner ≠ rootName := by
  have notRoot := r.notRoot
  unfold owner
  cases hname : r.name with
  | none => decide
  | some name =>
      rintro rfl
      exact notRoot hname

theorem alone_settings (s : Store) :
    (Settings.ofValue r.config defaultSettings).alone s =
      (.ok [("name", .text r.owner), ("is_enabled", .bool r.isOn), ("level", .int r.threshold),
        ("format", .text r.lineFormat)], s) := by
  obtain ⟨_ | name, _ | isEnabled, _ | level, _ | format, _, _⟩ := r <;> rfl

end Request

end Logging

namespace View

open Logging

variable {s : Store} {view : View} {order : List String} {format? : String → Option String} {n : String}

/-! ## Setting up -/

theorem alone_truth_text (s : Store) (text : String) :
    (Value.text text).truth.alone s = (.ok (decide (text ≠ "")), s) := rfl

theorem alone_nameOf (s : Store) (named : n ≠ "") : (nameOf (.text n)).alone s = (.ok n, s) := by
  rw [nameOf, alone_bind_ok (alone_truth_text s n), if_pos (decide_eq_true named)]
  rfl

theorem alone_lowerLevel (h : Arranged order format? s.logging) (n : String) (level : Int) :
    ∃ logging, (lowerLevel n (.int level)).alone s = (.ok (), { s with logging := logging }) ∧
      Arranged order format? logging := by
  obtain ⟨lower, compared⟩ := showsLess_int (s.logging.ownLevel n) level
  rw [lowerLevel, alone_read_bind, compared]
  cases lower with
  | true => exact ⟨_, rfl, h.setLevel n (.number level)⟩
  | false => exact ⟨_, rfl, h⟩

theorem alone_formatOf (s : Store) (format : String) :
    (∃ fault, (formatOf (.text format)).alone s = (.error fault, s)) ∨
      (formatOf (.text format)).alone s = (.ok (handlerFormat format), s) := by
  rw [formatOf, alone_bind_ok (alone_truth_text s format), handlerFormat]
  by_cases given : format = ""
  · rw [if_neg (by simp [given]), if_pos given]
    exact .inr rfl
  · rw [if_pos (decide_eq_true given), if_neg given]
    split
    · exact .inr rfl
    · exact .inl ⟨_, rfl⟩

theorem or_of_kept {f : String} (kept : format? n = some f) (more : String) :
    (fun m => (format? m).or (if n = m then some more else none)) = format? := by
  funext m
  by_cases here : n = m
  · simp [← here, kept]
  · simp [here]

theorem alone_bringHandler (h : Arranged order format? s.logging) (asked : n ∈ order) (named : n ≠ "")
    (other : n ≠ rootName) (format : String) :
    (∃ fault, (bringHandler n (.text format)).alone s = (.error fault, s)) ∨
      ∃ logging,
        (bringHandler n (.text format)).alone s = (.ok (), { s with logging := logging }) ∧
        Arranged order
          (fun m => (format? m).or (if n = m then some (handlerFormat format) else none)) logging := by
  have has : s.logging.hasHandler n = (format? n).isSome := by
    rw [hasHandler, h.handlers_eq named]
    cases format? n <;> rfl
  rw [bringHandler, alone_read_bind, has]
  cases kept : format? n with
  | some f =>
      refine .inr ⟨s.logging, rfl, ?_⟩
      rwa [or_of_kept kept]
  | none =>
      obtain ⟨fault, failed⟩ | made := alone_formatOf s format
      · refine .inl ⟨fault, ?_⟩
        rw [if_neg (by simp), alone_bind, failed]
      · refine .inr ⟨_, ?_, h.attach asked named other kept _⟩
        rw [if_neg (by simp), alone_bind_ok made]
        rfl

/-- The view that an owner is given out. -/
def requested (s : Store) (r : Request) : View := ⟨s.serial, r.owner, r.isOn, r.threshold⟩

theorem alone_action_eq (s : Store) (r : Request) :
    r.action.alone s =
      (if r.isOn then do
        lowerLevel r.owner (.int r.threshold)
        bringHandler r.owner (.text r.lineFormat)
        return requested s r
      else return requested s r : Action View).alone
        { s with logging := s.logging.ensure r.owner, serial := s.serial + 1 } := by
  have made : (make r.owner (.bool r.isOn) (.int r.threshold)).alone s =
    (.ok (requested s r), { s with logging := s.logging.ensure r.owner, serial := s.serial + 1 }) := rfl
  refine (alone_bind_ok (r.alone_settings s) _).trans ?_
  refine (alone_bind_ok (alone_nameOf s r.owner_ne_empty) _).trans ?_
  exact alone_bind_ok made _

/-- What comes of asking for a logger.  The name has been asked for in any case; a view is given
out unless there is no handler and none can be made. -/
theorem alone_action (h : Arranged order format? s.logging) (r : Request) :
    ∃ logging,
      (∃ fault, r.action.alone s = (.error fault, { s with logging := logging, serial := s.serial + 1 }) ∧
        Arranged (order ++ [r.owner]) format? logging) ∨
      (r.action.alone s = (.ok (requested s r), { s with logging := logging, serial := s.serial + 1 }) ∧
        Arranged (order ++ [r.owner]) (fun n => (format? n).or (r.brings n)) logging) := by
  have ensured := h.ensure r.owner_ne_empty
  rw [alone_action_eq]
  let s₁ : Store := { s with logging := s.logging.ensure r.owner, serial := s.serial + 1 }
  by_cases on : r.isOn
  · obtain ⟨lowered, lowers, arranged⟩ := alone_lowerLevel (s := s₁) ensured r.owner r.threshold
    rw [if_pos on, alone_bind_ok lowers]
    obtain ⟨fault, failed⟩ | ⟨logging, brought, arranged⟩ :=
      alone_bringHandler (s := { s₁ with logging := lowered }) arranged (by simp)
        r.owner_ne_empty r.owner_ne_root r.lineFormat
    · refine ⟨lowered, .inl ⟨fault, ?_, arranged⟩⟩
      rw [alone_bind, failed]
    · refine ⟨logging, .inr ⟨by rw [alone_bind_ok brought]; rfl, ?_⟩⟩
      simpa [Request.brings, on] using arranged
  · refine ⟨_, .inr ⟨by rw [if_neg on]; rfl, ?_⟩⟩
    simpa [Request.brings, on] using ensured

/-! ## Letting through -/

theorem alone_atLeast (s : Store) (m n : Int) :
    Action.alone (ofExcept ((Value.int m).atLeast (.int n))) s = (.ok (decide (n ≤ m)), s) := rfl

theorem alone_loggerLets (s : Store) (view : View) (level : Int) :
    (view.loggerLets (.int level)).alone s = (.ok (s.logging.lets view.name level), s) := by
  rw [loggerLets, alone_read_bind, show Value.unhashable? s (.int level) = none from rfl]
  refine (alone_bind_ok (alone_atLeast s 0 level) _).trans ?_
  rw [lets]
  by_cases positive : 0 < level
  · rw [if_neg (by simpa using positive), alone_read_bind, alone_atLeast, decide_eq_true positive,
      Bool.true_and]
  · rw [if_pos (by simpa using positive), decide_eq_false positive, Bool.false_and]
    rfl

theorem alone_admits (bare : s.Bare view.identity) (level : Int) :
    (view.admits (.int level)).alone s = (.ok (s.logging.isEnabledFor view level), s) := by
  have switch : view.switch.alone s = (.ok (.bool view.enabled), s) := by
    rw [View.switch, alone_read, bare]
    rfl
  have truth : (Value.bool view.enabled).truth.alone s = (.ok view.enabled, s) := rfl
  have limit : view.limit.alone s = (.ok (.int view.threshold), s) := by
    rw [View.limit, alone_read, bare]
    rfl
  rw [admits, alone_bind_ok switch, alone_bind_ok truth, isEnabledFor]
  cases view.enabled with
  | false => rfl
  | true =>
      rw [if_pos rfl, alone_bind_ok limit, alone_bind_ok (alone_atLeast s level view.threshold),
        Bool.true_and]
      by_cases reached : view.threshold ≤ level
      · rw [if_pos (decide_eq_true reached), alone_loggerLets, decide_eq_true reached, Bool.true_and]
      · rw [if_neg (by simpa using reached), decide_eq_false reached, Bool.false_and]
        rfl

theorem alone_logAt (bare : s.Bare view.identity) (level : Int) (text : String) :
    (view.logAt (.int level) text).alone s =
      (.ok (), { s with logging := s.logging.log view level text }) := by
  rw [logAt, alone_bind_ok (alone_admits bare level), Logging.log]
  split <;> rfl

end View

namespace Logging

/-! ## Lines -/

/-- The lines that a record comes to in a format; none if the format cannot be filled. -/
def linesOf (format : String) (record : Record) : List String :=
  match render? format record with
  | some line => Text.lines (line ++ "\n")
  | none => []

/-- What there is in the middle of a history. -/
structure Scene where
  store : Store
  /-- The names that have been asked for. -/
  asked : List String
  /-- The owners who have got a view, with their views. -/
  made : List (Request × View)

inductive Deed where
  | make (request : Request)
  /-- Logs by the view of an owner. -/
  | log (i : Nat) (level : Int) (text : String)

namespace Scene

def start (files : FileTree) : Scene := ⟨.ofFiles files, [], []⟩

def next (scene : Scene) : Deed → Scene
  | .make request =>
      let asked := scene.asked ++ [request.owner]
      match request.action.alone scene.store with
      | (.ok view, store) => ⟨store, asked, scene.made ++ [(request, view)]⟩
      | (.error _, store) => ⟨store, asked, scene.made⟩
  | .log i level text =>
      match scene.made[i]? with
      | some (_, view) => { scene with store := ((view.logAt (.int level) text).alone scene.store).2 }
      | none => scene

def run (scene : Scene) (deeds : List Deed) : Scene := deeds.foldl next scene

/-- The names of all loggers, in the order in which they have been asked for. -/
def order (scene : Scene) : List String := rootName :: scene.asked

/-- The format that the first owner of a name has brought who is on. -/
def format? (scene : Scene) (name : String) : Option String :=
  scene.made.findSome? fun (r, _) => r.brings name

structure Valid (scene : Scene) : Prop where
  unassigned : scene.store.assigned = []
  arranged : Arranged scene.order scene.format? scene.store.logging
  owned : ∀ r view, (r, view) ∈ scene.made → view.name = r.owner ∧ r.owner ∈ scene.asked

variable {scene : Scene}

theorem Valid.bare (h : scene.Valid) (i : Identity) : scene.store.Bare i := fun name => by
  rw [Store.assigned?, h.unassigned]
  rfl

theorem start_valid (files : FileTree) : (start files).Valid :=
  ⟨rfl, arranged_empty, by simp [start]⟩

theorem next_valid (h : scene.Valid) (deed : Deed) : (scene.next deed).Valid := by
  cases deed with
  | make r =>
      have owned : ∀ r' view, (r', view) ∈ scene.made →
          view.name = r'.owner ∧ r'.owner ∈ scene.asked ++ [r.owner] := fun r' view mem =>
        ⟨(h.owned r' view mem).1, List.mem_append_left _ (h.owned r' view mem).2⟩
      obtain ⟨logging, ⟨fault, failed, arranged⟩ | ⟨made, arranged⟩⟩ := View.alone_action h.arranged r
      · rw [next, failed]
        exact ⟨h.unassigned, arranged, owned⟩
      · rw [next, made]
        refine ⟨h.unassigned, ?_, fun r' view mem => ?_⟩
        · have formats : format? ⟨scene.store, [], scene.made ++ [(r, View.requested scene.store r)]⟩ =
              fun n => (scene.format? n).or (r.brings n) := by
            funext n
            simp [format?, List.findSome?_append]
          exact formats ▸ arranged
        · obtain mem | new := List.mem_append.mp mem
          · exact owned r' view mem
          · obtain ⟨rfl, rfl⟩ := Prod.mk.inj (List.mem_singleton.mp new)
            exact ⟨rfl, by simp⟩
  | log i level text =>
      rw [next]
      split
      · next r view found =>
          rw [View.alone_logAt (h.bare view.identity)]
          exact ⟨h.unassigned, h.arranged.log view level text, h.owned⟩
      · exact h

theorem run_valid (h : scene.Valid) (deeds : List Deed) : (scene.run deeds).Valid := by
  induction deeds generalizing scene with
  | nil => exact h
  | cons deed deeds ih => exact ih (next_valid h deed)

/-! ## What is written -/

/-- Asks for a logger with a name and a format. -/
def ask (name format : String) (named : name ≠ "") (notRoot : name ≠ rootName) : Deed :=
  .make ⟨some name, none, none, some format, by simpa using named, by simpa using notRoot⟩

/-- A history in which there are no files. -/
def after (deeds : List Deed) : Scene := (start ⟨[], []⟩).run deeds

/-- Two owners, the second of which also logs to the handler of the first. -/
def nested : List Deed :=
  [ask "a" "p:%(message)s" (by decide) (by decide), ask "a.b" "c:%(message)s" (by decide) (by decide)]

end Scene

end Logging

end NinjaFile
