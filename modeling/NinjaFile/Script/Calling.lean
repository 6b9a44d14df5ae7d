import NinjaFile.Script.Formatting
import NinjaFile.Script.Making
import NinjaFile.Script.Member

/-!
# Calling methods

The methods of each type with their parameters and what they do.  A method that only
changes an object gives the object back, so that calls can be chained.
-/

namespace NinjaFile.Script

open Callable

/-- Does something to an object and gives it back. -/
def chained (o : Object) (action : Action Unit) : Action Value := do
  action
  return .object o

def handleOf (action : Action Handle) : Action Value := do return (← action).toValue

/-! ## Attachments -/

def variablesMethods (o : Object) (r : Receiver) : List Callable :=
  [binary "Variables" "variable" "name" "value" fun name value =>
    chained o (r.attach [(name, value)])]

def ruleVariablesMethods (o : Object) (r : Receiver) : List Callable :=
  let owner := "RuleVariables"
  let attach (a : Attachment) : Action Value := chained o (r.attach a)
  [unary owner "depfile" "depfile" fun v => attach (.depfile v),
    nullary owner "deps_gcc" (attach .depsGcc),
    nullary owner "deps_msvc" (attach .depsMsvc),
    unary owner "deps_msvc_prefix" "msvc_deps_prefix" fun v => attach (.depsMsvcPrefix v),
    unary owner "description" "description" fun v => attach (.description v),
    nullary owner "generator" (attach .generator),
    unary owner "in_newline" "in_newline" fun v => attach (.inNewline v),
    nullary owner "restat" (attach .restat),
    binary owner "rspfile" "rspfile" "rspfile_content" fun file content =>
      attach (.rspfile file content),
    nullary owner "pool_console" (attach .poolConsole),
    unary owner "pool" "pool" fun v => chained o (r.usePool v)]

def buildVariablesMethods (o : Object) (r : Receiver) : List Callable :=
  let owner := "BuildVariables"
  let paths (name parameter : String) (slot : Slot) : Callable :=
    unary owner name parameter fun v => chained o (r.addPaths slot v)
  [paths "with_" "inputs" .inputs,
    paths "with_implicit" "inputs" .implicitInputs,
    paths "with_order_only" "inputs" .orderOnlyInputs,
    paths "with_validations" "validations" .validations,
    paths "output_implicit" "outputs" .implicitOutputs,
    unary owner "dyndep" "dyndep" fun v => chained o (r.attach (.dyndep v))]

/-- The set of attachment methods an object has. -/
def mixin? : Object → Option Mixin
  | .rule _ => some .ruleVariables
  | .build _ => some .buildVariables
  | .pool _ => some .variables
  | .mixin _ m => some m
  | .handle h =>
      match h.expected with
      | .any => none
      | .rule => some .ruleVariables
      | .build => some .buildVariables
      | .pool => some .variables
  | _ => none

def attachmentMethods (o : Object) : List Callable :=
  match o.receiver?, mixin? o with
  | some r, some .variables => variablesMethods o r
  | some r, some .ruleVariables => ruleVariablesMethods o r ++ variablesMethods o r
  | some r, some .buildVariables =>
      buildVariablesMethods o r ++ ruleVariablesMethods o r ++ variablesMethods o r
  | _, _ => []

/-! ## Lists -/

def itemsOf (v : Value) : Action Value := do return .list (← v.iterate)

def lengthOf (v : Value) : Action Value := do return .int (← v.length)

/-- The key that is reported missing is shown. -/
def itemOf (v index : Value) : Action Value :=
  match v with
  | .mapping _ => do v.item index (← index.display)
  | v => v.item index ""

def truthOf (v : Value) : Action Value := do return .bool (← v.truth)

/-- The names under which a value gives its items, its length and its truth. -/
def iterateName : String := "__iter__"
def lengthName : String := "__len__"
def itemName : String := "__getitem__"
def truthName : String := "__bool__"

def sequenceMethods (v : Value) : List Callable :=
  [nullary v.typeName iterateName (itemsOf v), nullary v.typeName lengthName (lengthOf v),
    unary v.typeName itemName "index" (itemOf v)]

def truthMethod (v : Value) : Callable := nullary v.typeName truthName (truthOf v)

def snapshotMethod (v : Value) : Callable :=
  nullary v.typeName "snapshot" do return .tuple (← v.snapshot)

def listMethods (id : ListId) : List Callable :=
  let v : Value := .object (.list id)
  let owner := v.typeName
  [unary owner "add" "item" fun item => do return .int (← id.add item),
    unary owner "extend" "items" fun items => do
      id.extend (← items.iterate)
      return .null,
    unary owner "adopt" "ownership" fun ownership => v.adopt ownership,
    snapshotMethod v, truthMethod v] ++ sequenceMethods v

def arenaMethods (arena : Arena) : List Callable :=
  let v : Value := .object (.arena arena)
  [unary v.typeName "append" "statement" fun w => do return .int (← arena.append w),
    snapshotMethod v] ++ sequenceMethods v

/-! ## Documents -/

def insertionMethods (id : DocumentId) : List Callable :=
  let owner := id.toValue.typeName
  let chained := chained (.document id)
  [unary owner "comment" "text" fun v => chained (id.comment v),
    binary owner "variable" "name" "value" fun name value => chained (id.binding name value),
    unary owner "defaults" "outputs" fun v => chained (id.defaults v),
    unary owner "subninja" "path" fun v => chained (id.subninja v),
    unary owner "include" "path" fun v => chained (id.inclusion v)]

def documentMethods (id : DocumentId) : List Callable :=
  let owner := id.toValue.typeName
  [binary owner "rule" "name" "command" fun name command => handleOf (id.rule name command),
    unary owner "add_rule" "rule" fun v => handleOf (id.addRule v),
    unary owner "phony" "outputs" fun v => handleOf (id.phony v),
    unary owner "add_build" "build" fun v => handleOf (id.addBuild v),
    binary owner "pool" "name" "depth" fun name depth => handleOf (id.pool name depth),
    unary owner "add_pool" "pool" fun v => handleOf (id.addPool v),
    nullary owner "render" do return .text (← id.render),
    unary owner "write" "path" fun v => do return .path (← id.write v).toText] ++
    insertionMethods id

/-! ## Nodes and handles -/

/-- Adds a node to what should be a document. -/
def addTo (v document : Value) (add : DocumentId → Value → Action Handle) (name : String) :
    Action Value :=
  match document with
  | .object (.document id) => handleOf (add id v)
  | other => .fail (.noAttribute other.typeName name)

def nodeMethods (node : Node) : List Callable :=
  let v := node.toValue
  let owner := v.typeName
  let common : List Callable :=
    [unary owner "adopt" "ownership" fun ownership => do
        node.adopt ownership
        return .null,
      nullary owner "render" do return .text (← node.render)]
  match node with
  | .rule _ =>
      unary owner "add_to" "document" (fun d => addTo v d DocumentId.addRule "add_rule") :: common
  | .pool _ =>
      unary owner "add_to" "document" (fun d => addTo v d DocumentId.addPool "add_pool") :: common
  | .build _ => common

def handleMethods (h : Handle) : List Callable :=
  let add : Callable :=
    unary Expected.any.typeName "add" "statement" fun v => do
      return .int (← (← h.statements).append v)
  match h.expected with
  | .rule =>
      [unary h.expected.typeName "build" "outputs" fun v => handleOf (h.build v), add]
  | .pool =>
      [binary h.expected.typeName "rule" "name" "command" fun name command =>
        handleOf (h.rule name command), add]
  | _ => [add]

/-! ## Views -/

/-- Whether a view lets a level through; a switch that is off answers for itself. -/
def admission (view : View) (level : Value) : Action Value := do
  let switch ← view.switch
  if ← switch.truth then return .bool (← view.admits level) else return switch

def logMethod (view : View) (level message : Value) : Action Value := do
  view.logAt level (← message.toText)
  return .null

def viewMethods (view : View) : List Callable :=
  let owner := (Object.view view).typeName
  [unary owner "isEnabledFor" "level" (admission view),
    binary "LoggerAdapter" "log" "level" "msg" (logMethod view),
    unary "LoggerAdapter" "debug" "msg" (logMethod view (.int 10)),
    unary "LoggerAdapter" "info" "msg" (logMethod view (.int 20)),
    unary "LoggerAdapter" "warning" "msg" (logMethod view (.int 30)),
    unary "LoggerAdapter" "error" "msg" (logMethod view (.int 40)),
    unary "LoggerAdapter" "critical" "msg" (logMethod view (.int 50))]

/-! ## All of them -/

def ownMethods (o : Object) : List Callable :=
  match o with
  | .list id => listMethods id
  | .arena arena => arenaMethods arena
  | .document id => documentMethods id
  | .rule id => nodeMethods (.rule id)
  | .build id => nodeMethods (.build id)
  | .pool id => nodeMethods (.pool id)
  | .binding _ b => [nullary o.typeName "render" (return .text b.render)]
  | .handle h => handleMethods h
  | .formatter .. => Formatter.methods (.object o)
  | .view view => viewMethods view
  | _ => []

def guardMethod (o : Ownership) : Callable :=
  ⟨(Value.ownership o).typeName, "guard", [("blocking", some (.bool false))], fun args =>
    guardFor o (args.getD 0 (.bool false))⟩

def methodsOf (v : Value) : List Callable :=
  match v with
  | .object o => ownMethods o ++ attachmentMethods o
  | .ownership o => [guardMethod o]
  | .null | .bool _ | .int _ | .float _ => [truthMethod v]
  | .range .. => truthMethod v :: sequenceMethods v
  | .text _ | .bytes .fixed _ | .bytes .growable _ | .list _ | .tuple _ | .mapping _ =>
      sequenceMethods v
  | .source _ => [nullary v.typeName iterateName (itemsOf v)]
  | _ => []

/-- The method of a name, unless something else was put in its place. -/
def methodNamed? (v : Value) (name : String) : Action (Option Callable) :=
  Action.read fun s =>
    if (v.identity?.bind fun i => s.assigned? i name).isSome then none
    else (methodsOf v).find? fun m => m.name == name

def callNamed (v : Value) (name : String) (args : List Value) (named : List (String × Value)) :
    Action Value := do
  match ← methodNamed? v name with
  | some m => m.call args named
  | none => .fail (.notCallable (← v.member name).typeName)

/-- Calls a method of a value. -/
def invoke (v : Value) (m : Method) (args : List Value) (named : List (String × Value)) :
    Action Value :=
  match m with
  | .display => do return .text (← v.display)
  | .text => do return .text (← v.toText)
  | .iterate => callNamed v iterateName args named
  | .length => callNamed v lengthName args named
  | .item => callNamed v itemName args named
  | .truth => callNamed v truthName args named
  | .named name => callNamed v name args named

/-- An attribute of a value; a method is an object of its own each time it is asked for. -/
def memberOf (v : Value) (name : String) : Action Value := do
  match ← methodNamed? v name with
  | some _ => do
      let serial ← Program.update Store.nextSerial
      return .bare serial "method"
  | none => v.member name

end NinjaFile.Script
