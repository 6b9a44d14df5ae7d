import NinjaFile.Logging.View
import NinjaFile.Rendering
import NinjaFile.Settings

/-!
# Logger settings

What the owner of a logger can choose: its name, whether it is on, its level, and
the format of the handler that it brings along.  A view that is on lowers the level of
its logger to its own and gives it a handler, unless the logger has one.
-/

namespace NinjaFile

namespace Logging

def defaultSettings : List (String × Value) :=
  [("name", .text "ninja_writer"), ("is_enabled", .bool true), ("level", .int debugLevel),
    ("format", .text defaultFormat)]

/-- The level that a name stands for. -/
def levelNamed? : String → Option Int
  | "CRITICAL" | "FATAL" => some 50
  | "ERROR" => some 40
  | "WARN" | "WARNING" => some 30
  | "INFO" => some 20
  | "DEBUG" => some 10
  | "NOTSET" => some 0
  | _ => none

/-- The name of the logger that a value asks for. -/
def nameOf (v : Value) : Action String := do
  if ← v.truth then
    match v with
    | .text name => return name
    | _ => .fail (.unsuitable "A logger name must be a string")
  else return rootName

/-- The level that a logger can take on from a value. -/
def levelOf (v : Value) : Action Whole := do
  match v.whole?, v with
  | some n, _ => return n
  | none, .text s =>
      match levelNamed? s with
      | some n => return .number n
      | none => .fail (.raised ("Unknown level: " ++ Text.quoted s))
  | none, v =>
      .fail (.unsuitable ("Level not an integer or a valid string: " ++ (← v.display)))

/-- The format that a handler can take on from a value; it needs a field. -/
def formatOf (v : Value) : Action String := do
  if ← v.truth then
    match v with
    | .text format =>
        if isFormat format then return format
        else .fail (.raised ("Invalid format '" ++ format ++ "' for '%' style"))
    | v => .fail (.unsuitable ("expected string or bytes-like object, got '" ++ v.typeName ++ "'"))
  else return plainFormat

end Logging

namespace View

open Logging

/-- Makes a view of the logger of a name; switch and threshold may be any values. -/
def make (name : String) (enabled threshold : Value) : Action View := do
  .modify fun s => { s with logging := s.logging.ensure name }
  let switch : List (String × Value) :=
    match enabled with
    | .bool _ => []
    | v => [("is_enabled", v)]
  let (limit, bound) : Int × List (String × Value) :=
    match threshold with
    | .int n => (n, [])
    | v => (0, [("threshold", v)])
  .update fun s =>
    let (serial, s) := s.insertSerial (switch ++ bound)
    (⟨serial, name, enabled.isTrue, limit⟩, s)

/-- A logger with this level of its own shows less than with another. -/
def showsLess (own : Whole) (level : Value) : Except Fault Bool :=
  if own.value = 0 then .ok true else (Value.ofWhole own).exceeds level

/-- The logger of a name takes on a level if it has none or shows less. -/
def lowerLevel (name : String) (level : Value) : Action Unit := do
  let own ← Action.read fun s => s.logging.ownLevel name
  if ← Program.ofExcept (showsLess own level) then do
    let level ← levelOf level
    .modify fun s => { s with logging := s.logging.setLevel name level }
  else return ()

/-- The logger of a name gets a handler unless it has one. -/
def bringHandler (name : String) (format : Value) : Action Unit := do
  if ← Action.read fun s => s.logging.hasHandler name then return ()
  else
    let format ← formatOf format
    .modify fun s => { s with logging := s.logging.attach name format }

/-- Makes a view with the given settings and configures its logger. -/
def ofSettings (settings : List (String × Value)) : Action View := do
  let name ← nameOf (Settings.value settings "name")
  let enabled := Settings.value settings "is_enabled"
  let level := Settings.value settings "level"
  let view ← make name enabled level
  if ← enabled.truth then do
    lowerLevel name level
    bringHandler name (Settings.value settings "format")
    return view
  else return view

end View

end NinjaFile
