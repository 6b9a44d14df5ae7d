import NinjaFile.Document
import NinjaFile.Keyed
import NinjaFile.Manifest.Basic
import NinjaFile.Text.Escape

/-!
# Building documents

A builder replays the declarations of a manifest on a new document, in order.  It
remembers the rules and pools it has met by name; a later one of the same name
takes the place of an earlier one.
-/

namespace NinjaFile

namespace Manifest

/-- A pool that rules can name. -/
inductive PoolEntry where
  | builtIn (id : PoolId)
  | declared (h : Handle)
deriving DecidableEq, Repr

namespace PoolEntry

def toValue : PoolEntry → Value
  | .builtIn id => .object (.pool id)
  | .declared h => h.toValue

end PoolEntry

end Manifest

open Manifest

structure Builder where
  manifest : Manifest
  /-- Settings for its documents. -/
  config : List (Value × Value)
  rules : List (String × Handle)
  pools : List (String × PoolEntry)

namespace Builder

/-- A value under a text key, in place of the old one if there is one. -/
def setEntry (key : String) (v : Value) : List (Value × Value) → List (Value × Value)
  | [] => [(.text key, v)]
  | (k, w) :: rest =>
      if k.text? = some key then (k, v) :: rest else (k, w) :: setEntry key v rest

/-- A manifest can ask for a thread-safe document, but not against the settings. -/
def ofManifest (manifest : Manifest) (config : List (Value × Value)) : Builder :=
  ⟨manifest, if manifest.threadSafe then setEntry "thread_safe" (.bool true) config else config,
    [], []⟩

/-- The escaping that the manifest asks for. -/
def escaped (b : Builder) (k : Text.Escape.Context) (text : String) : String :=
  if b.manifest.escape then Text.Escape.escape k text else text

def outputs (b : Builder) (paths : List String) : Value :=
  .list (paths.map fun p => .text (b.escaped .output p))

def inputs (b : Builder) (paths : List String) : Value :=
  .list (paths.map fun p => .text (b.escaped .path p))

def input (b : Builder) (path : String) : Value := .text (b.escaped .path path)

def attachBindings (h : Handle) (bindings : List Binding) : Action Unit :=
  (Receiver.handle h).attach (bindings.map fun v => (.text v.name, .text v.value))

def attachDyndep (h : Handle) : Option String → Action Unit
  | none => return ()
  | some file => (Receiver.handle h).attach (.dyndep (.text file))

/-- Attaches everything of a build but its outputs. -/
def configure (b : Builder) (h : Handle) (plan : BuildPlan) : Action Unit := do
  let r := Receiver.handle h
  r.addPaths .inputs (b.inputs plan.paths.inputs)
  r.addPaths .implicitInputs (b.inputs plan.paths.implicitInputs)
  r.addPaths .orderOnlyInputs (b.inputs plan.paths.orderOnlyInputs)
  r.addPaths .validations (b.inputs plan.paths.validations)
  r.addPaths .implicitOutputs (b.outputs plan.paths.implicitOutputs)
  attachDyndep h plan.dyndep
  attachBindings h plan.bindings

def addBuilds (b : Builder) (rule : Handle) : List BuildPlan → Action Unit
  | [] => return ()
  | plan :: rest => do
      let h ← rule.build (b.outputs plan.paths.outputs)
      b.configure h plan
      b.addBuilds rule rest

/-- A rule runs in a pool that was declared before. -/
def joinPool (b : Builder) (h : Handle) (position : Nat) (name : String) :
    Option String → Action Unit
  | none => return ()
  | some poolName =>
      match b.pools.lookup poolName with
      | none => .fail (.reference (.undeclaredPool name poolName) position)
      | some entry => (Receiver.handle h).usePool entry.toValue

/-- A rule with its pool and bindings; its builds come later. -/
def addRule (b : Builder) (d : DocumentId) (position : Nat) (name command : String)
    (pool : Option String) (bindings : List Binding) : Action Handle := do
  let h ← d.rule (.text name) (.text command)
  b.joinPool h position name pool
  attachBindings h bindings
  return h

def addBuild (b : Builder) (d : DocumentId) (position : Nat) (plan : BuildPlan)
    (rule : String) : Action Unit := do
  let outputs := b.outputs plan.paths.outputs
  if rule = DocumentId.phonyName then
    let h ← d.phony outputs
    b.configure h plan
  else
    match b.rules.lookup rule with
    | none => .fail (.reference (.undeclaredRule rule) position)
    | some r =>
        let h ← r.build outputs
        b.configure h plan

def addPool (d : DocumentId) (name : String) (depth : Nat) (bindings : List Binding) :
    Action Handle := do
  let h ← d.pool (.text name) (.int depth)
  attachBindings h bindings
  return h

def setRule (b : Builder) (name : String) (h : Handle) : Builder :=
  { b with rules := setKey name h b.rules }

def setPool (b : Builder) (name : String) (entry : PoolEntry) : Builder :=
  { b with pools := setKey name entry b.pools }

/-- Replays one declaration; the builder is as far as it got. -/
def add (b : Builder) (d : DocumentId) (position : Nat) (declaration : Declaration) :
    Action (Builder × Except Fault Unit) := do
  match declaration with
  | .rule name command pool bindings builds =>
      match ← (b.addRule d position name command pool bindings).attempt with
      | .error fault => return (b, .error fault)
      | .ok h =>
          let b := b.setRule name h
          return (b, ← (b.addBuilds h builds).attempt)
  | .build plan rule => return (b, ← (b.addBuild d position plan rule).attempt)
  | .phony plan =>
      let action := do
        let h ← d.phony (b.outputs plan.paths.outputs)
        b.configure h plan
      return (b, ← action.attempt)
  | .pool name depth bindings =>
      match ← (addPool d name depth bindings).attempt with
      | .error fault => return (b, .error fault)
      | .ok h => return (b.setPool name (.declared h), .ok ())
  | .binding v => return (b, ← (d.binding (.text v.name) (.text v.value)).attempt)
  | .comment text => return (b, ← (d.comment (.text text)).attempt)
  | .defaults outputs => return (b, ← (d.defaults (b.inputs outputs)).attempt)
  | .subninja path => return (b, ← (d.subninja (b.input path)).attempt)
  | .inclusion path => return (b, ← (d.inclusion (b.input path)).attempt)
  | .foreign typeName =>
      return (b, .error (.reference (.unsupported typeName) position))

def addAll (b : Builder) (d : DocumentId) (position : Nat) :
    List Declaration → Action (Builder × Except Fault Unit)
  | [] => return (b, .ok ())
  | declaration :: rest => do
      match ← b.add d position declaration with
      | (b, .error fault) => return (b, .error fault)
      | (b, .ok ()) => b.addAll d (position + 1) rest

/-- Makes a document of the manifest.  The rules met before stay in the builder. -/
def build (b : Builder) : Action (Builder × Except Fault DocumentId) := do
  match ← (DocumentId.make (.mapping b.config)).attempt with
  | .error fault => return (b, .error fault)
  | .ok d =>
      let console := (← d.record).console
      let b := { b with pools := [(DocumentId.consoleName, .builtIn console)] }
      let (b, outcome) ← b.addAll d 0 b.manifest.declarations
      return (b, outcome.map fun _ => d)

/-! ## Tables -/

def byName (entries : List (String × α)) : List (String × α) :=
  entries.mergeSort fun a b => a.1 ≤ b.1

/-- The rules that names stand for, by the index of their statement. -/
def ruleTable (b : Builder) : List (String × Int) :=
  byName (b.rules.map fun (name, h) => (name, h.index))

/-- The pools that names stand for; the built-in one has no statement. -/
def poolTable (b : Builder) : List (String × Option Int) :=
  byName (b.pools.map fun (name, entry) =>
    (name, match entry with | .builtIn _ => none | .declared h => some h.index))

end Builder

end NinjaFile
