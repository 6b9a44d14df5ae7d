import NinjaFile.Display
import NinjaFile.Layout

/-!
# Rendering

The text of statements.  What a value says as a statement depends on its kind alone:
each attribute that the kind asks for is looked up right before it is read, and each
list is read once, under its guard.  What was read is a plain `Statement`, which is
then laid out.
-/

namespace NinjaFile

namespace Value

/-- The first value that is not a text, with its position. -/
def firstOther (position : Nat) : List Value → Option (Nat × Value)
  | [] => none
  | .text _ :: rest => firstOther (position + 1) rest
  | v :: _ => some (position, v)

/-- Words that all have to be texts. -/
def checkWords (words : List Value) : Except Fault Unit :=
  match firstOther 0 words with
  | none => .ok ()
  | some (position, v) => .error (.notText position v.typeName)

def texts (words : List Value) : List String := words.filterMap text?

/-- A marker and its words, or nothing when there are none. -/
def group (marker : String) (words : List Value) : List Value :=
  if words.isEmpty then [] else .text marker :: words

/-- The paths of a build, if all of them and the name of its rule are texts. -/
def paths (ruleName : Value) (lists : Slots (List Value)) :
    Except Fault (Slots (List String)) := do
  checkWords (.text "build" :: lists.outputs ++ group "|" lists.implicitOutputs)
  checkWords
    (ruleName :: lists.inputs ++ group "|" lists.implicitInputs ++
      group "||" lists.orderOnlyInputs ++ group "|@" lists.validations)
  return lists.map texts

/-- The items of a value in the middle of others. -/
def spread (v : Value) : Action (List Value) :=
  match v.items with
  | .none =>
      .fail (.unsuitable ("Value after * must be an iterable, not " ++ v.typeName))
  | _ => v.iterate

/-- What an arena or a list holds at the moment. -/
def snapshot (v : Value) : Action (List Value) :=
  match v with
  | .object (.list id) => id.snapshot
  | .object (.arena arena) => arena.statements.snapshot
  | v => .fail (.noAttribute v.typeName "snapshot")

end Value

namespace Printer

/-! ## Blocks -/

/-- What a value is as a line of a block: a binding, or the text of a node or a document. -/
def blockLine (p : Printer) (v : Value) : Action BlockLine := do
  match ← Action.read fun s => v.stored? s "render" with
  | some w => .fail (.notCallable w.typeName)
  | none =>
      match v with
      | .object (.binding _ b) => return .binding b
      | .object (.document _) | .object (.rule _) | .object (.build _) | .object (.pool _) =>
          return .text (← p.say v)
      | v => .fail (.noAttribute v.typeName "render")

def blockLines (p : Printer) : List Value → Action (List BlockLine)
  | [] => return []
  | v :: rest => do
      let first ← p.blockLine v
      return first :: (← p.blockLines rest)

/-- The block of something that has bindings. -/
def block (p : Printer) (v : Value) : Action (List BlockLine) := do
  p.blockLines (← (← v.member "variables").iterate)

/-! ## Statements -/

def ruleOf (p : Printer) (v : Value) : Action Statement := do
  let name ← p.sayMember v "name"
  return .rule name (← p.block v)

/-- The name and the block of a built-in pool are not looked at. -/
def poolOf (p : Printer) (v : Value) : Action Statement := do
  if ← (← v.member "built_in").truth then return .pool "" [] true
  else
    let name ← p.sayMember v "name"
    return .pool name (← p.block v) false

def edgeOf (p : Printer) (v : Value) : Action Statement := do
  let outputs ← (← v.member "outputs").spread
  let implicitOutputs ← (← v.member "implicit_outputs").iterate
  let ruleName ← v.member "rule_name"
  let inputs ← (← v.member "dependencies").spread
  let implicitInputs ← (← v.member "implicit_dependencies").iterate
  let orderOnlyInputs ← (← v.member "order_only_dependencies").iterate
  let validations ← (← v.member "validations").iterate
  let paths ← Program.ofExcept (Value.paths ruleName
    ⟨outputs, implicitOutputs, inputs, implicitInputs, orderOnlyInputs, validations⟩)
  return .build ⟨ruleName.text?.getD "", paths, ← p.block v⟩

def defaultsOf (v : Value) : Action Statement := do
  let outputs ← (← v.member "outputs").spread
  Program.ofExcept (Value.checkWords (.text "default" :: outputs))
  return .defaults (Value.texts outputs)

/-- What a value says as a statement of a kind. -/
def statementOf (p : Printer) (k : Kind) (v : Value) : Action Statement :=
  match k with
  | .comment => do return .comment (← p.sayMember v "text")
  | .rule => p.ruleOf v
  | .build => p.edgeOf v
  | .binding => do return .binding (← p.blockLine v)
  | .defaults => defaultsOf v
  | .subninja => do return .subninja (← p.sayMember v "path")
  | .inclusion => do return .inclusion (← p.sayMember v "path")
  | .pool => p.poolOf v

/-- What a value says; it has to be of a kind that is known. -/
def statement (p : Printer) (v : Value) : Action Statement := do
  match ← v.kindOf with
  | .kind k => p.statementOf k v
  | other => .fail (.unknownKind (← p.say other))

/-- What the values of a file say, one after the other.  The place of a statement in
the file depends on the ordinal of its kind, which is asked for first. -/
def statements (p : Printer) : List Value → Action (List Statement)
  | [] => return []
  | v :: rest => do
      let _ ← (← v.kindOf).member "ordinal"
      let first ← p.statement v
      return first :: (← p.statements rest)

/-! ## Texts -/

/-- What a mark says that stands in front of every line of the blocks, if there are any. -/
def sayMark (p : Printer) (mark : Value) (statements : List Statement) : Action String :=
  if statements.all fun s => s.block.isEmpty then return "" else p.say mark

/-- Lines of a statement, where the mark that indents a block may be any value. -/
def lines (p : Printer) (mark : Value) (statement : Statement) : Action (List String) := do
  return Layout.lines (← p.sayMark mark [statement]) statement

def fileText (p : Printer) (mark : Value) (statements : List Statement) : Action String := do
  return Layout.file (← p.sayMark mark statements) statements

def nodeText (p : Printer) (statement : Action Statement) : Action String := do
  return Layout.joinLines (← p.lines (.text Layout.defaultIndent) (← statement))

def documentText (p : Printer) (id : DocumentId) : Action String := do
  let place ← (Value.object (.document id)).member "statements"
  p.fileText (.text Layout.defaultIndent) (← p.statements (← place.snapshot))

/-- What a value says, and how it is shown, when its parts are left to `p`. -/
def step (p : Printer) : Printer
  | .shown, v => Display.text p v
  | .said, v =>
      match v with
      | .text s => return s
      | .path p => return p
      | .kind k => return "StatementKind." ++ k.name
      | .ownership o => return "Ownership." ++ o.label
      | .object (.binding _ b) => return b.render
      | .object (.report ..) => Display.reportText p v
      | .object (.document id) => p.documentText id
      | .object (.rule _) => p.nodeText (p.ruleOf v)
      | .object (.build _) => p.nodeText (p.edgeOf v)
      | .object (.pool _) => p.nodeText (p.poolOf v)
      | v => Display.text p v

/-- The printer for values that are nested at most `depth` deep. -/
def deep : Nat → Printer
  | 0 => fun _ _ => .fail .tooDeep
  | depth + 1 => fun manner v => (deep depth).step manner v

end Printer

/-- Values can be nested this deep. -/
def nestingLimit : Nat := 1000

def printer : Printer := .deep nestingLimit

namespace Value

def display (v : Value) : Action String := printer.display v

/-- What a value says, or else how it is shown. -/
def toText (v : Value) : Action String := printer.say v

end Value

namespace Node

def toValue (node : Node) : Value := .object (.ofNode node)

def render (node : Node) : Action String := node.toValue.toText

end Node

end NinjaFile
