import NinjaFile.Logging.Format
import NinjaFile.Text.Lines

/-!
# Logging

Loggers are known by name and shared by everyone who asks for the name.  Names
form a hierarchy along their dots: a logger without a level of its own takes
that of its parent, and a line written to it also goes to the handlers of all
its ancestors.  A `View` is one owner's switch and threshold on a named logger;
it can only narrow what the logger lets through.
-/

namespace NinjaFile

/-- One owner's view of a named logger; the serial number tells views apart. -/
structure View where
  serial : Nat
  name : String
  enabled : Bool
  threshold : Int
deriving DecidableEq, Repr

structure Logger where
  name : String
  /-- Zero stands for no level of its own. -/
  level : Whole
  /-- The formats of its handlers, oldest first. -/
  handlers : List String
  parent : Option String
deriving DecidableEq, Repr

/-- The loggers made so far, the root first, and the lines written, oldest first. -/
structure Logging where
  loggers : List Logger
  lines : List String
deriving DecidableEq, Repr

namespace Logging

def rootName : String := "root"
def rootLevel : Int := 30

def empty : Logging := ⟨[⟨rootName, .number rootLevel, [], none⟩], []⟩

def debugLevel : Int := 10
def infoLevel : Int := 20

/-! ## Names -/

/-- The initial parts of a name that end before a dot, the longest first.  A
part right in front of another dot is passed over. -/
def ancestorsFrom (name : List Char) : Nat → List (List Char)
  | 0 => []
  | 1 => []
  | i + 2 =>
      if name[i + 1]? = some '.' then name.take (i + 1) :: ancestorsFrom name i
      else ancestorsFrom name (i + 1)

def ancestors (name : String) : List String :=
  (ancestorsFrom name.toList name.length).map String.ofList

def find? (logging : Logging) (name : String) : Option Logger :=
  logging.loggers.find? fun l => l.name == name

/-- The empty name is another one for the root. -/
def canonical (name : String) : String :=
  if name = "" then rootName else name

/-- A new logger takes over the loggers below it, unless what they have for a
parent already starts with its name. -/
def adopt (name : String) (l : Logger) : Logger :=
  let current := l.parent.getD rootName
  if (ancestors l.name).contains name && !name.toList.isPrefixOf current.toList then
    { l with parent := some name }
  else l

/-- Makes the logger of a name unless there is one. -/
def ensure (logging : Logging) (name : String) : Logging :=
  let name := canonical name
  match logging.find? name with
  | some _ => logging
  | none =>
      let parent := (ancestors name).find? fun a => (logging.find? a).isSome
      let logger : Logger := ⟨name, .number 0, [], some (parent.getD rootName)⟩
      { logging with loggers := logging.loggers.map (adopt name) ++ [logger] }

def modify (logging : Logging) (name : String) (f : Logger → Logger) : Logging :=
  { logging with
    loggers := logging.loggers.map fun l => if l.name = canonical name then f l else l }

/-- A logger followed by its ancestors up to the root. -/
def chainFrom (logging : Logging) : Nat → String → List Logger
  | 0, _ => []
  | fuel + 1, name =>
      match logging.find? name with
      | none => []
      | some l =>
          match l.parent with
          | none => [l]
          | some parent => l :: chainFrom logging fuel parent

def chain (logging : Logging) (name : String) : List Logger :=
  logging.chainFrom logging.loggers.length (canonical name)

/-! ## Levels and handlers -/

def effectiveLevel (logging : Logging) (name : String) : Int :=
  match (logging.chain name).find? fun l => l.level.value ≠ 0 with
  | some l => l.level.value
  | none => 0

/-- The level of a logger itself. -/
def ownLevel (logging : Logging) (name : String) : Whole :=
  ((logging.find? (canonical name)).map (·.level)).getD (.number 0)

def setLevel (logging : Logging) (name : String) (level : Whole) : Logging :=
  logging.modify name fun l => { l with level := level }

/-- The formats of the handlers of a logger itself. -/
def handlers (logging : Logging) (name : String) : List String :=
  ((logging.find? (canonical name)).map (·.handlers)).getD []

def hasHandler (logging : Logging) (name : String) : Bool :=
  !(logging.handlers name).isEmpty

/-- Gives a logger one more handler. -/
def attach (logging : Logging) (name format : String) : Logging :=
  logging.modify name fun l => { l with handlers := l.handlers ++ [format] }

/-- A logger lets nothing through below its level, and nothing at or below zero. -/
def lets (logging : Logging) (name : String) (level : Int) : Bool :=
  0 < level && logging.effectiveLevel name ≤ level

def isEnabledFor (logging : Logging) (view : View) (level : Int) : Bool :=
  view.enabled && view.threshold ≤ level && logging.lets view.name level

/-! ## Lines -/

/-- Writes a record to the handlers of a logger and to those of its ancestors.  A
handler whose format cannot be filled writes nothing. -/
def write (logging : Logging) (name : String) (level : Whole) (text : String) : Logging :=
  let record : Record := ⟨canonical name, level, text⟩
  let formats := (logging.chain name).flatMap (·.handlers)
  { logging with
    lines := logging.lines ++ formats.flatMap fun f =>
      match render? f record with
      | some line => Text.lines (line ++ "\n")
      | none => [] }

/-- Writes a record if the view is enabled for it. -/
def log (logging : Logging) (view : View) (level : Int) (text : String) : Logging :=
  if logging.isEnabledFor view level then logging.write view.name (.number level) text
  else logging

/-- The pending lines, and the state without them. -/
def drain (logging : Logging) : List String × Logging :=
  (logging.lines, { logging with lines := [] })

end Logging

end NinjaFile
