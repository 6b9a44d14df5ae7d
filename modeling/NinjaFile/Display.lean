import NinjaFile.Construction

/-!
# Display

Values as they are shown to a person who inspects them: texts are quoted, objects
are shown by type and fields, lists by the items they hold at the moment.  How the
parts of a value are turned into text is left to a printer.
-/

namespace NinjaFile

/-- What a value says, or how it is shown. -/
inductive Manner where
  | said
  | shown
deriving DecidableEq, Repr

abbrev Printer := Manner → Value → Action String

namespace Printer

/-- What a value says; a text says itself. -/
def say (p : Printer) (v : Value) : Action String :=
  match v with
  | .text s => return s
  | v => p .said v

/-- How a value is shown. -/
def display (p : Printer) (v : Value) : Action String := p .shown v

def sayMember (p : Printer) (v : Value) (name : String) : Action String := do
  p.say (← v.member name)

def showMember (p : Printer) (v : Value) (name : String) : Action String := do
  p.display (← v.member name)

/-- Shows values one after the other. -/
def showAll (p : Printer) : List Value → Action (List String)
  | [] => return []
  | v :: rest => do
      let first ← p.display v
      return first :: (← p.showAll rest)

def showEntries (p : Printer) : List (Value × Value) → Action (List String)
  | [] => return []
  | (k, v) :: rest => do
      let key ← p.display k
      let value ← p.display v
      return (key ++ ": " ++ value) :: (← p.showEntries rest)

/-- Attributes with their names, each looked up right before it is shown. -/
def showFields (p : Printer) (v : Value) : List String → Action (List String)
  | [] => return []
  | name :: rest => do
      let text ← p.showMember v name
      return (name ++ "=" ++ text) :: (← p.showFields v rest)

end Printer

namespace Display

def commaSeparated (parts : List String) : String := ", ".intercalate parts

def bool (b : Bool) : String := if b then "True" else "False"

def list (parts : List String) : String := "[" ++ commaSeparated parts ++ "]"

/-- A single component keeps a comma. -/
def tuple : List String → String
  | [part] => "(" ++ part ++ ",)"
  | parts => "(" ++ commaSeparated parts ++ ")"

def record (name : String) (fields : List String) : String :=
  name ++ "(" ++ commaSeparated fields ++ ")"

def kind (k : Kind) : String :=
  "<StatementKind." ++ k.name ++ ": " ++ toString k.ordinal ++ ">"

def ownership (o : Ownership) : String :=
  "<Ownership." ++ o.label ++ ": " ++ Text.quoted o.name ++ ">"

def range (start stop step : Int) : String :=
  let ends := toString start ++ ", " ++ toString stop
  "range(" ++ (if step = 1 then ends else ends ++ ", " ++ toString step) ++ ")"

/-- What is shown of an object that has no fields to show. -/
def bareText (typeName : String) : String := "<" ++ typeName ++ " object>"

def viewText (logging : Logging) (view : View) : String :=
  "<ScopedLogger " ++ Logging.canonical view.name ++ " (" ++
    Logging.levelName (.number (logging.effectiveLevel view.name)) ++ ")>"

end Display

namespace Object

/-- The fields by which an object is shown. -/
def shownFields? : Object → Option (List String)
  | .comment .. => some ["text"]
  | .binding .. => some ["name", "value"]
  | .defaults .. => some ["outputs"]
  | .subninja .. | .inclusion .. => some ["path"]
  | .rule _ => some ["name", "variables"]
  | .pool _ => some ["name", "variables", "built_in"]
  | .build _ => some ("rule_name" :: Slot.all.map Slot.fieldName ++ ["variables"])
  | .formatter .. => some ["indent"]
  | _ => none

end Object

namespace Display

/-- The arguments of a report that is held as an object. -/
def reportArguments (v : Value) : Action (List Value) := do
  match ← v.member "args" with
  | .tuple items => return items
  | _ => return []

/-- What a report says: its argument, if it has just one. -/
def reportText (p : Printer) (v : Value) : Action String := do
  match ← reportArguments v with
  | [] => return ""
  | [message] => p.say message
  | arguments => p.display (.tuple arguments)

def listText (p : Printer) (id : ListId) : Action String := do
  let items ← id.snapshot
  let parts ← p.showAll items
  let own ← (Value.object (.list id)).member "ownership"
  return "AddOnlyList(" ++ list parts ++ ", ownership=" ++ (← p.sayMember own "value") ++ ")"

def handleText (p : Printer) (h : Handle) : Action String := do
  let index ← p.say (← h.place)
  let statement ← p.display (← h.statement)
  return record h.expected.typeName ["index=" ++ index, "statement=" ++ statement]

def objectText (p : Printer) (o : Object) : Action String :=
  match o with
  | .list id => listText p id
  | .handle h => handleText p h
  | .report .. => do
      match ← reportArguments (.object o) with
      | [message] => return o.typeName ++ "(" ++ (← p.display message) ++ ")"
      | arguments => return o.typeName ++ (← p.display (.tuple arguments))
  | .view view => Action.read fun s => viewText s.logging view
  | o =>
      match o.shownFields? with
      | some names => do return record o.typeName (← p.showFields (.object o) names)
      | none => return bareText o.typeName

/-- A value as it is shown. -/
def text (p : Printer) (v : Value) : Action String :=
  match v with
  | .null => return "None"
  | .bool b => return bool b
  | .int n => return toString n
  | .float x => return x.toText
  | .text s => return Text.quoted s
  | .bytes .growable content => return "bytearray(" ++ Text.quotedBytes content ++ ")"
  | .bytes _ content => return Text.quotedBytes content
  | .path p => return "PurePosixPath(" ++ Text.quoted p ++ ")"
  | .list items => do return list (← p.showAll items)
  | .tuple items => do return tuple (← p.showAll items)
  | .mapping entries => do
      return "\x7b" ++ commaSeparated (← p.showEntries entries) ++ "\x7d"
  | .range start stop step => return range start stop step
  | .ownership o => return ownership o
  | .kind k => return kind k
  | .object o => objectText p o
  | v => return bareText v.typeName

end Display

end NinjaFile
