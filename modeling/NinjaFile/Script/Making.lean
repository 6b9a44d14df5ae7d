import NinjaFile.Document
import NinjaFile.Script.Parameter
import NinjaFile.Script.Syntax

/-!
# Making objects

The parameters of each class and the object it makes of them.  What an object cannot
hold as it is, it holds as an attribute that was assigned to it.
-/

namespace NinjaFile.Script

/-- What a value says when it is put into a text. -/
def said (v : Value) : Action String := v.toText

/-! ## Lists and arenas -/

def makeList (items ownership blocking : Value) : Action Value := do
  let ownership ← Program.ofExcept ownership.ownershipOf
  let items ← items.iterate
  return .object (.list (← ListId.makeWith ownership blocking items))

/-- An arena logs by the view it is given; without one it logs nowhere. -/
def makeArena (ownership logger : Value) : Action Value := do
  let hasLogger ← logger.truth
  let ownership ← Program.ofExcept ownership.ownershipOf
  match logger with
  | .object (.view view) => return .object (.arena (← Arena.make ownership (some view)))
  | logger =>
      let attributes : List (String × Value) := if hasLogger then [("logger", logger)] else []
      .update fun s =>
        let (id, s) := s.insertList (.make ownership true [])
        (.object (.arena ⟨ownership, id, none⟩), s.assignAll (.arena id) attributes)

/-! ## Guards -/

def makeGuard (guard : Guard) (attributes : List (String × Value)) : Action Value :=
  .update fun s =>
    let (id, s) := s.insertGuard guard
    (.object (.guard (.free id) guard.isLocking), s.assignAll (.guard (.free id)) attributes)

/-- A lock keeps what it was given for a truth value. -/
def makeLock (blocking : Value) : Action Value :=
  let attributes : List (String × Value) :=
    match blocking with
    | .bool _ => []
    | v => [("blocking", v)]
  makeGuard (.locking (.free blocking.isTrue)) attributes

/-- The guard that goes with an ownership. -/
def guardFor (ownership : Ownership) (blocking : Value) : Action Value :=
  match ownership with
  | .single => makeGuard (.cooperative false) []
  | .shared => makeLock blocking

/-! ## Formatters and reports -/

def makeFormatter (indent : Value) : Action Value :=
  let attributes : List (String × Value) :=
    match indent with
    | .text _ => []
    | v => [("indent", v)]
  .update fun s =>
    let (serial, s) := s.insertSerial attributes
    (.object (.formatter serial (indent.text?.getD Layout.defaultIndent)), s)

/-- A report with its arguments and its other attributes. -/
def makeReport (r : Report) (arguments : List Value) (attributes : List (String × Value)) :
    Action Value :=
  .update fun s =>
    let (serial, s) := s.insertSerial (("args", .tuple arguments) :: attributes)
    (.object (.report serial r), s)

def makeManifestReport (message position : Value) : Action Value := do
  let arguments ←
    match position with
    | .null => pure message
    | position => do
        let text ← said message
        pure (.text (text ++ " at statement " ++ (← said position)))
  makeReport .manifest [arguments] [("position", position)]

def makeBorrowReport (message mode : Value) : Action Value := do
  let text ← said message
  let shownMode ← said mode
  makeReport .borrow [.text (BorrowFault.compose text shownMode)] [("mode", mode)]

def makeKindReport (expected actual index : Value) : Action Value := do
  let expectedText ← said expected
  let indexText ← said index
  makeReport .wrongKind
    [.text ("Expected " ++ expectedText ++ " statement at index " ++ indexText ++ ", found " ++
      actual.typeName)]
    [("expected", expected), ("actual", actual), ("index", index)]

/-! ## Classes -/

namespace Class

def typeName : Class → String
  | .document => "NinjaDocument"
  | .rule => "Rule"
  | .build => "Build"
  | .pool => "Pool"
  | .comment => "Comment"
  | .defaults => "Default"
  | .subninja => "Subninja"
  | .inclusion => "Include"
  | .binding => "Variable"
  | .list => "AddOnlyList"
  | .arena => "StatementList"
  | .handle _ => Expected.any.typeName
  | .cooperativeGuard => "CooperativeGuard"
  | .lockGuard => "LockGuard"
  | .formatter => "NinjaFormatter"
  | .mixin m => m.typeName
  | .manifestError => Report.manifest.typeName
  | .borrowError => Report.borrow.typeName
  | .kindError => Report.wrongKind.typeName

def ownershipParameter : Parameter := ("ownership", some (.ownership .single))

def parameters : Class → List Parameter
  | .document => [("config", some .null)]
  | .rule => needed ["name", "command"] ++ [ownershipParameter]
  | .build => needed ["rule", "outputs"] ++ [ownershipParameter]
  | .pool =>
      needed ["name", "depth"] ++ [ownershipParameter, ("built_in", some (.bool false))]
  | .comment => needed ["text"]
  | .defaults => needed ["outputs"]
  | .subninja | .inclusion => needed ["path"]
  | .binding => needed ["name", "value"]
  | .list =>
      [("items", some (.tuple [])), ownershipParameter, ("blocking", some (.bool false))]
  | .arena => [ownershipParameter, ("logger", some .null)]
  | .handle _ => needed ["statements", "index"]
  | .cooperativeGuard | .mixin _ => []
  | .lockGuard => [("blocking", some (.bool false))]
  | .formatter => [("indent", some (.text Layout.defaultIndent))]
  | .manifestError => needed ["message"] ++ [("position", some .null)]
  | .borrowError => needed ["message", "mode"]
  | .kindError => needed ["expected", "actual", "index"]

/-- Makes an object from the values of all parameters. -/
def construct (c : Class) (args : List Value) : Action Value :=
  match c, args with
  | .document, [config] => do return .object (.document (← DocumentId.make config))
  | .rule, [name, command, ownership] => do
      return .object (.rule (← RuleId.make name command ownership))
  | .build, [base, outputs, ownership] => do
      return .object (.build (← BuildId.make base outputs ownership))
  | .pool, [name, depth, ownership, builtIn] => do
      return .object (.pool (← PoolId.make name depth ownership builtIn))
  | .comment, [text] => makeComment text
  | .defaults, [outputs] => makeDefaults outputs
  | .subninja, [path] => makeSubninja path
  | .inclusion, [path] => makeInclusion path
  | .binding, [name, value] => makeBinding name value
  | .list, [items, ownership, blocking] => makeList items ownership blocking
  | .arena, [ownership, logger] => makeArena ownership logger
  | .handle expected, [statements, index] => do
      return (← Handle.make expected statements index).toValue
  | .cooperativeGuard, _ => makeGuard (.cooperative false) []
  | .lockGuard, [blocking] => makeLock blocking
  | .formatter, [indent] => makeFormatter indent
  | .mixin m, _ => makeObject fun serial => .mixin serial m
  | .manifestError, [message, position] => makeManifestReport message position
  | .borrowError, [message, mode] => makeBorrowReport message mode
  | .kindError, [expected, actual, index] => makeKindReport expected actual index
  | _, _ => .fail .notImplemented

def callable (c : Class) : Callable := ⟨c.typeName, "__init__", c.parameters, c.construct⟩

/-- Makes an object of what is handed over.  The bare sets of methods take nothing at all. -/
def make (c : Class) (args : List Value) (named : List (String × Value)) : Action Value :=
  match c with
  | .mixin m =>
      if args.isEmpty && named.isEmpty then c.callable.call args named
      else .fail (.unsuitable (m.typeName ++ "() takes no arguments"))
  | c => c.callable.call args named

end Class

end NinjaFile.Script
