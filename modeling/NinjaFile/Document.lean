import NinjaFile.Construction
import NinjaFile.Logging.Settings

/-!
# Documents

A document is an arena with settings, a logger view, and two nodes that are built
in: the rule `phony` and the pool `console`.
-/

namespace NinjaFile


namespace DocumentId

/-- All documents log under one name. -/
def loggerName : String := "ninja_writer.document"

def phonyName : String := "phony"
def consoleName : String := "console"

def defaultSettings : List (String × Value) :=
  [("thread_safe", .bool false), ("enable_logger", .bool false),
    ("log_level", .int Logging.debugLevel)]

/-- The settings of the logger that a document brings along. -/
def loggerSettings (settings : List (String × Value)) : List (String × Value) :=
  Configuration.resolve
    [("name", .text loggerName), ("is_enabled", Settings.value settings "enable_logger"),
      ("level", Settings.value settings "log_level")]
    Logging.defaultSettings

def ownershipOf (threadSafe : Bool) : Ownership := if threadSafe then .shared else .single

def make (config : Value) : Action DocumentId := do
  let settings ← Settings.ofValue config defaultSettings
  let ownership := ownershipOf (← (Settings.value settings "thread_safe").truth)
  let view ← View.ofSettings (loggerSettings settings)
  let arena ← Arena.make ownership (some view)
  let phony ← RuleId.make (.text phonyName) (.text "") (.ownership ownership)
  let console ← PoolId.make (.text consoleName) (.int 1) (.ownership ownership) (.bool true)
  view.log Logging.debugLevel ("Created document with " ++ ownership.name ++ " ownership")
  .update fun s => s.insertDocument ⟨settings, arena, phony, console⟩

def record (id : DocumentId) : Action DocumentRecord := Action.read fun s => s.document id

def toValue (id : DocumentId) : Value := .object (.document id)

/-- Where the statements of a document go. -/
def statements (id : DocumentId) : Action Value := id.toValue.member "statements"

/-! ## Insertions that give a handle -/

def insert (id : DocumentId) (expected : Expected) (v : Value) : Action Handle := do
  (← id.statements).insert expected v

def addRule (id : DocumentId) (v : Value) : Action Handle := id.insert .rule v
def addBuild (id : DocumentId) (v : Value) : Action Handle := id.insert .build v
def addPool (id : DocumentId) (v : Value) : Action Handle := id.insert .pool v

def rule (id : DocumentId) (name command : Value) : Action Handle := do
  let r ← RuleId.make name command (.ownership .single)
  id.addRule (.object (.rule r))

def phony (id : DocumentId) (outputs : Value) : Action Handle := do
  let rule ← id.toValue.member "phony_rule"
  let b ← BuildId.make rule outputs (.ownership .single)
  id.addBuild (.object (.build b))

def pool (id : DocumentId) (name depth : Value) : Action Handle := do
  let p ← PoolId.make name depth (.ownership .single) (.bool false)
  id.addPool (.object (.pool p))

/-! ## Insertions that leave the document to go on with -/

def add (id : DocumentId) (v : Value) : Action Unit := do
  let _ ← (← id.statements).append v
  return ()

def comment (id : DocumentId) (text : Value) : Action Unit := do
  id.add (← makeComment text)

def binding (id : DocumentId) (name value : Value) : Action Unit := do
  id.add (← makeBinding name value)

def defaults (id : DocumentId) (outputs : Value) : Action Unit := do
  id.add (← makeDefaults outputs)

def subninja (id : DocumentId) (path : Value) : Action Unit := do
  id.add (← makeSubninja path)

def inclusion (id : DocumentId) (path : Value) : Action Unit := do
  id.add (← makeInclusion path)

/-! ## Output -/

def render (id : DocumentId) : Action String := id.toValue.toText

end DocumentId

namespace Value

/-- The normal form of the path a value stands for. -/
def toPath : Value → Except Fault Text.Path
  | .text s | .path s | .pathText s => .ok (.ofString s)
  | .pathBytes _ | .bytes .fixed _ =>
      .error (.unsuitable ("argument should be a str object or an os.PathLike object " ++
        "returning str, not <class 'bytes'>"))
  | v =>
      .error (.unsuitable
        ("expected str, bytes or os.PathLike object, not " ++ v.typeName))

end Value

namespace Store

/-- Replaces the content of a file, or says why it cannot. -/
def saveText (s : Store) (path : Text.Path) (content : String) : Except Fault Unit × Store :=
  match s.files.write path (Text.Utf8.encode content) with
  | .error fault => (.error (.file fault path.toText), s)
  | .ok files => (.ok (), { s with files := files })

def fileBytes (s : Store) (path : Text.Path) : Except Fault (List UInt8) :=
  match s.files.read path with
  | .error fault => .error (.file fault path.toText)
  | .ok content => .ok content

end Store

namespace DocumentId

/-- Writes the document to a file and gives the path in normal form. -/
def write (id : DocumentId) (path : Value) : Action Text.Path := do
  let path ← Program.ofExcept path.toPath
  let output ← id.render
  Program.ofExcept (← .update fun s => s.saveText path output)
  let view ← Program.ofExcept ((← id.toValue.member "logger").logger? "info")
  let count ← (← id.statements).length
  logBy view Logging.infoLevel
    ("Wrote " ++ toString count ++ " statements to " ++ path.toText)
  return path

end DocumentId

end NinjaFile
