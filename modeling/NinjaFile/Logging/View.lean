import NinjaFile.Iteration
import NinjaFile.Order

/-!
# Views

What a view lets through to its logger.  Switch and threshold of a view can be replaced
by any value, which is then looked at anew for each line.
-/

namespace NinjaFile

namespace View

def identity (view : View) : Identity := .serial view.serial

/-- Nothing was put in the place of the switch and the threshold. -/
def isPlain (s : Store) (view : View) : Bool :=
  (s.assigned? view.identity "is_enabled").isNone &&
    (s.assigned? view.identity "threshold").isNone

def switch (view : View) : Action Value :=
  Action.read fun s => (s.assigned? view.identity "is_enabled").getD (.bool view.enabled)

def limit (view : View) : Action Value :=
  Action.read fun s => (s.assigned? view.identity "threshold").getD (.int view.threshold)

/-- Whether the logger of a view lets a level through. -/
def loggerLets (view : View) (level : Value) : Action Bool := do
  match ← Action.read fun s => Value.unhashable? s level with
  | some typeName => .fail (.unhashable typeName)
  | none =>
      if ← Program.ofExcept ((Value.int 0).atLeast level) then return false
      else
        let least ← Action.read fun s => s.logging.effectiveLevel view.name
        Program.ofExcept (level.atLeast (.int least))

/-- Whether a view and its logger let a level through. -/
def admits (view : View) (level : Value) : Action Bool := do
  if ← (← view.switch).truth then
    if ← Program.ofExcept (level.atLeast (← view.limit)) then view.loggerLets level
    else return false
  else return false

/-- Writes a line if a view lets its level through, which then has to be a whole number. -/
def logAt (view : View) (level : Value) (text : String) : Action Unit := do
  if ← view.admits level then
    match level.whole? with
    | some n => .modify fun s => { s with logging := s.logging.write view.name n text }
    | none => .fail (.unsuitable "level must be an integer")
  else return ()

def log (view : View) (level : Int) (text : String) : Action Unit := do
  if ← Action.read view.isPlain then
    .modify fun s => { s with logging := s.logging.log view level text }
  else view.logAt (.int level) text

end View

namespace Value

/-- Where a value logs: by a view, or nowhere; `member` is what is asked of it. -/
def logger? (v : Value) (member : String) : Except Fault (Option View) :=
  match v with
  | .object (.view view) => .ok (some view)
  | .bare _ "Logger" => .ok none
  | v => .error (.noAttribute v.typeName member)

end Value

/-- Logs by a view, if there is one. -/
def logBy (view : Option View) (level : Int) (text : String) : Action Unit :=
  match view with
  | some view => view.log level text
  | none => return ()

end NinjaFile
