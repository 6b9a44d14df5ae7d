import NinjaFile.Attribute
import NinjaFile.Script.Session
import NinjaFile.Subscript

/-!
# Showing values

How values are written into answers.  Plain values are written as they are and objects
by name; the state of an object shows its parts whatever its guards say, and so does an
object that is an item of a list.
-/

namespace NinjaFile.Script

/-- How a value is written: as a result, by name where it has one, or as an item, by
its state where it has one. -/
inductive Style where
  | result
  | item
deriving DecidableEq, Repr

abbrev Writer := Style → Value → Json

def texts (items : List String) : Json := .list (items.map .text)

/-! ## States -/

namespace State

/-- An attribute as it is written. -/
def stored (s : Store) (w : Writer) (o : Object) (name : String) : Json :=
  match (Value.object o).stored? s name with
  | some v => w .result v
  | none => .null

/-- The items of a list or of an arena. -/
def itemsOf (s : Store) : Value → List Value
  | .object (.list id) => (s.list id).items
  | .object (.arena arena) => (s.list arena.statements).items
  | _ => []

/-- The ownership of a list. -/
def ownershipOf (s : Store) (v : Value) : Option Value :=
  match v with
  | .object (.list id) => some (s.listOwnership id)
  | _ => none

def isShared (s : Store) (v : Value) : Bool :=
  match ownershipOf s v with
  | some (.ownership .shared) => true
  | _ => false

/-- A binding in a block. -/
def blockItem (w : Writer) : Value → Json
  | .object (.binding _ b) => texts [b.name, b.value]
  | v => w .item v

def blockItems (s : Store) (w : Writer) (v : Value) : Json :=
  .list ((itemsOf s v).map (blockItem w))

def ofGuard (s : Store) (w : Writer) (o : Object) (lock : LockId) : Json :=
  match s.guard lock with
  | .cooperative writing => .object [("writing", .bool writing)]
  | .locking lock =>
      .object
        [("writing", .bool lock.writer.isSome),
          ("readers", .list
            ((lock.readers.map (·.2)).mergeSort (· ≤ ·) |>.map fun n => .int n)),
          ("blocking", stored s w o "blocking")]

/-- How many statements there are, and their ownership. -/
def ofArena (s : Store) (w : Writer) (o : Object) (statements : Value) : Json :=
  .object [("n", .int (itemsOf s statements).length), ("own", stored s w o "ownership")]

def ofNode (s : Store) (w : Writer) (node : Node) : Json :=
  let o := Object.ofNode node
  let bindings := s.partValue node .bindings
  let common : List (String × Json) :=
    [("own", match ownershipOf s bindings with | some v => w .result v | none => .null),
      ("vars", blockItems s w bindings)]
  match node with
  | .rule _ => .object (("rule", stored s w o "name") :: common)
  | .pool _ =>
      .object
        (("pool", stored s w o "name") :: common ++ [("built_in", stored s w o "built_in")])
  | .build _ =>
      let shared := node.parts.filter fun part => isShared s (s.partValue node part)
      let filled := node.parts.filterMap fun part =>
        let list := s.partValue node part
        if (itemsOf s list).isEmpty then none else some (part.name, blockItems s w list)
      .object
        (("build", stored s w o "rule_name") ::
          ("shared", texts (shared.map Part.name)) :: filled)

/-- The statement at the place of a handle. -/
def there (s : Store) (w : Writer) (o : Object) : Json :=
  let v : Value := .object o
  match v.stored? s "statements", v.stored? s "index" with
  | some (.object (.arena arena)), some index =>
      match Value.listItem (s.list arena.statements).items index with
      | .ok item => w .item item
      | .error _ => .null
  | _, _ => .null

/-- The state of an object, if it has parts to show. -/
def ofObject (s : Store) (w : Writer) (o : Object) : Option Json :=
  match o with
  | .list id =>
      some (.object
        [("own", stored s w o "ownership"),
          ("items", .list ((s.list id).items.map (w .item)))])
  | .arena _ => some (ofArena s w o (.object o))
  | .document _ =>
      some (ofArena s w o (((Value.object o).stored? s "statements").getD .null))
  | .comment _ text => some (.object [("comment", .text text)])
  | .binding _ b => some (.object [("variable", texts [b.name, b.value])])
  | .defaults _ outputs => some (.object [("default", texts outputs)])
  | .subninja _ path => some (.object [("subninja", .text path)])
  | .inclusion _ path => some (.object [("include", .text path)])
  | .handle _ => some (.object [("index", stored s w o "index"), ("at", there s w o)])
  | .guard lock _ => some (ofGuard s w o lock)
  | .formatter .. => some (.object [("indent", stored s w o "indent")])
  | .rule id => some (ofNode s w (.rule id))
  | .build id => some (ofNode s w (.build id))
  | .pool id => some (ofNode s w (.pool id))
  | .mixin .. | .report .. | .view _ => none

end State

/-! ## Values -/

/-- The text that a key becomes. -/
def textKey : Value → String
  | .text s => s
  | .int n => toString n
  | .bool b => if b then "true" else "false"
  | .null => "null"
  | .float x => x.toText
  | _ => ""

mutual

/-- How a value is written, given that of what is no plain value. -/
def writeWith (thing : Writer) (style : Style) (v : Value) : Json :=
  match v with
  | .null => .null
  | .bool b => .bool b
  | .int n => .int n
  | .float x => .float x
  | .text t | .path t => .text t
  | .ownership o => .text o.name
  | .kind k => .text k.name
  | .list items | .tuple items => .list (writeAll thing style items)
  | .mapping entries => .object (writeEntries thing style entries)
  | v => thing style v

def writeAll (thing : Writer) (style : Style) (items : List Value) : List Json :=
  match items with
  | [] => []
  | v :: rest => writeWith thing style v :: writeAll thing style rest

def writeEntries (thing : Writer) (style : Style) (entries : List (Value × Value)) :
    List (String × Json) :=
  match entries with
  | [] => []
  | (k, v) :: rest => (textKey k, writeWith thing style v) :: writeEntries thing style rest

end

namespace Session

/-- A thing that is shown by its name, or else with its type and its state. -/
def writeNamed (s : Session) (v : Value) (state : Option Json) : Json :=
  match s.firstName? v with
  | some name => .object [("obj", .text name)]
  | none => .object [("new", .text v.typeName), ("state", state.getD .null)]

/-- How things are written whose states are nested at most `depth` deep. -/
def writeThing (s : Session) : Nat → Writer
  | 0, _, _ => .null
  | depth + 1, style, v =>
      let state := v.object?.bind (State.ofObject s.store (writeWith (s.writeThing depth)))
      match style, state with
      | .item, some state => state
      | _, state => s.writeNamed v state

def stateDepth : Nat := 60

def writer (s : Session) : Writer := writeWith (s.writeThing stateDepth)

def write (s : Session) (v : Value) : Json := s.writer .result v

/-- The state of a value, if it has one. -/
def state? (s : Session) (v : Value) : Option Json :=
  v.object?.bind (State.ofObject s.store s.writer)

end Session

end NinjaFile.Script
