import NinjaFile.Logging
import NinjaFile.Number.Shortest
import NinjaFile.Ownership
import NinjaFile.Statement
import NinjaFile.Text.Path
import NinjaFile.Text.Quoted

/-!
# Values

What callers hand in and get back.  Numbers, texts, bytes and paths are plain
data; an object is a reference to a part of the store, or fixed data with a
serial number, so that two objects with equal content stay two objects.  What has
been assigned to an object from outside lies in the store under its identity.
-/

namespace NinjaFile

abbrev Serial := Nat

structure ListId where
  index : Nat
deriving DecidableEq, Repr

structure RuleId where
  index : Nat
deriving DecidableEq, Repr

structure BuildId where
  index : Nat
deriving DecidableEq, Repr

structure PoolId where
  index : Nat
deriving DecidableEq, Repr

structure DocumentId where
  index : Nat
deriving DecidableEq, Repr

structure GuardId where
  index : Nat
deriving DecidableEq, Repr

/-- A lazy source of values, which can be drained once. -/
structure SourceId where
  index : Nat
deriving DecidableEq, Repr

/-- A guard that threads can ask for: that of a list, or one of its own. -/
inductive LockId where
  | list (id : ListId)
  | free (id : GuardId)
deriving DecidableEq, Repr

/-- The statements of a document: the list that holds them, the ownership every
part of them takes on, and where additions are logged. -/
structure Arena where
  ownership : Ownership
  statements : ListId
  view : Option View
deriving DecidableEq, Repr

/-- The kind of statement a handle insists on. -/
inductive Expected where
  | any
  | rule
  | build
  | pool
deriving DecidableEq, Repr

/-- A place in an arena; a negative index counts from the end. -/
structure Handle where
  serial : Serial
  expected : Expected
  arena : Arena
  index : Int
deriving DecidableEq, Repr

/-- Sets of attachment methods with nothing to attach to. -/
inductive Mixin where
  | variables
  | ruleVariables
  | buildVariables
deriving DecidableEq, Repr

/-- A fault as an object, by its cause. -/
inductive Report where
  | manifest
  | borrow
  | wrongKind
deriving DecidableEq, Repr

inductive Object where
  | list (id : ListId)
  | arena (arena : Arena)
  | document (id : DocumentId)
  | rule (id : RuleId)
  | build (id : BuildId)
  | pool (id : PoolId)
  | comment (serial : Serial) (text : String)
  | binding (serial : Serial) (b : Binding)
  | defaults (serial : Serial) (outputs : List String)
  | subninja (serial : Serial) (path : String)
  | inclusion (serial : Serial) (path : String)
  | handle (h : Handle)
  | guard (lock : LockId) (locking : Bool)
  | formatter (serial : Serial) (indent : String)
  | mixin (serial : Serial) (m : Mixin)
  | report (serial : Serial) (r : Report)
  | view (view : View)
deriving DecidableEq, Repr

/-- How a run of bytes is held: for good, to be changed in place, or as a window
on bytes that lie elsewhere. -/
inductive ByteForm where
  | fixed
  | growable
  | window
deriving DecidableEq, Repr

inductive Value where
  | null
  | bool (b : Bool)
  | int (n : Int)
  | float (x : Double)
  | text (s : String)
  | bytes (form : ByteForm) (content : List UInt8)
  | path (p : String)
  /-- Something that gives a path when asked. -/
  | pathText (p : String)
  | pathBytes (content : List UInt8)
  | list (items : List Value)
  | tuple (items : List Value)
  | mapping (entries : List (Value × Value))
  | range (start stop step : Int)
  | ownership (o : Ownership)
  | kind (k : Kind)
  | source (id : SourceId)
  | object (o : Object)
  /-- An object with nothing but an identity and a type. -/
  | bare (serial : Serial) (typeName : String)
  /-- An object that only claims to be of a kind. -/
  | lookalike (serial : Serial) (kind : Value)
deriving Repr, Inhabited

/-- What tells one thing from all others, however equal they are. -/
inductive Identity where
  | list (id : ListId)
  | arena (statements : ListId)
  | document (id : DocumentId)
  | rule (id : RuleId)
  | build (id : BuildId)
  | pool (id : PoolId)
  | guard (lock : LockId)
  | source (id : SourceId)
  | ownership (o : Ownership)
  | kind (k : Kind)
  | serial (n : Serial)
deriving DecidableEq, Repr

/-! ## Names of types -/

namespace Expected

def typeName : Expected → String
  | .any => "StatementRef"
  | .rule => "RuleRef"
  | .build => "BuildRef"
  | .pool => "PoolRef"

/-- The name of the statements a handle insists on. -/
def statementName : Expected → String
  | .any => "Statement"
  | .rule => "Rule"
  | .build => "Build"
  | .pool => "Pool"

end Expected

namespace Mixin

def typeName : Mixin → String
  | .variables => "Variables"
  | .ruleVariables => "RuleVariables"
  | .buildVariables => "BuildVariables"

end Mixin

namespace Report

def typeName : Report → String
  | .manifest => "ManifestError"
  | .borrow => "BorrowError"
  | .wrongKind => "StatementKindError"

end Report

namespace Object

def typeName : Object → String
  | .list _ => "AddOnlyList"
  | .arena _ => "StatementList"
  | .document _ => "NinjaDocument"
  | .rule _ => "Rule"
  | .build _ => "Build"
  | .pool _ => "Pool"
  | .comment .. => "Comment"
  | .binding .. => "Variable"
  | .defaults .. => "Default"
  | .subninja .. => "Subninja"
  | .inclusion .. => "Include"
  | .handle h => h.expected.typeName
  | .guard _ locking => if locking then "LockGuard" else "CooperativeGuard"
  | .formatter .. => "NinjaFormatter"
  | .mixin _ m => m.typeName
  | .report _ r => r.typeName
  | .view _ => "ScopedLogger"

def identity : Object → Identity
  | .list id => .list id
  | .arena a => .arena a.statements
  | .document id => .document id
  | .rule id => .rule id
  | .build id => .build id
  | .pool id => .pool id
  | .comment n _ | .binding n _ | .defaults n _ | .subninja n _ | .inclusion n _ => .serial n
  | .handle h => .serial h.serial
  | .guard lock _ => .guard lock
  | .formatter n _ | .mixin n _ | .report n _ => .serial n
  | .view v => .serial v.serial

/-- Two references to the same object. -/
def same (a b : Object) : Bool := a.identity = b.identity

/-- The kind of statement an object is, if it is one. -/
def kind? : Object → Option Kind
  | .comment .. => some .comment
  | .rule _ => some .rule
  | .build _ => some .build
  | .binding .. => some .binding
  | .defaults .. => some .defaults
  | .subninja .. => some .subninja
  | .inclusion .. => some .inclusion
  | .pool _ => some .pool
  | _ => none

end Object

namespace ByteForm

def typeName : ByteForm → String
  | .fixed => "bytes"
  | .growable => "bytearray"
  | .window => "memoryview"

end ByteForm

namespace Value

def typeName : Value → String
  | .null => "NoneType"
  | .bool _ => "bool"
  | .int _ => "int"
  | .float _ => "float"
  | .text _ => "str"
  | .bytes form _ => form.typeName
  | .path _ => "PurePosixPath"
  | .pathText _ | .pathBytes _ => "PathLike"
  | .list _ => "list"
  | .tuple _ => "tuple"
  | .mapping _ => "dict"
  | .range .. => "range"
  | .ownership _ => "Ownership"
  | .kind _ => "StatementKind"
  | .source _ => "generator"
  | .object o => o.typeName
  | .bare _ typeName => typeName
  | .lookalike .. => "SimpleNamespace"

/-- How many numbers a range has, from `start` on in steps and before `stop`. -/
def rangeLength (start stop step : Int) : Nat :=
  if 0 < step ∧ start < stop then ((stop - start - 1) / step + 1).toNat
  else if step < 0 ∧ stop < start then ((start - stop - 1) / -step + 1).toNat
  else 0

def rangeItem (start step : Int) (i : Nat) : Value := .int (start + step * i)

def rangeItems (start stop step : Int) : List Value :=
  (List.range (rangeLength start stop step)).map (rangeItem start step)

/-- The value counts as true where a choice is made on it. -/
def isTrue : Value → Bool
  | .null => false
  | .bool b => b
  | .int n => n ≠ 0
  | .float x => !x.isZero
  | .text s => s ≠ ""
  | .bytes _ content => !content.isEmpty
  | .list items | .tuple items => !items.isEmpty
  | .mapping entries => !entries.isEmpty
  | .range start stop step => 0 < rangeLength start stop step
  | _ => true

def text? : Value → Option String
  | .text s => some s
  | _ => none

def whole? : Value → Option Whole
  | .int n => some (.number n)
  | .bool b => some (.truth b)
  | _ => none

/-- A level, an index or another whole number; a truth value counts as 1 or 0. -/
def int? (v : Value) : Option Int := v.whole?.map Whole.value

def ofWhole : Whole → Value
  | .number n => .int n
  | .truth b => .bool b

def object? : Value → Option Object
  | .object o => some o
  | _ => none

def identity? : Value → Option Identity
  | .object o => some o.identity
  | .source id => some (.source id)
  | .ownership o => some (.ownership o)
  | .kind k => some (.kind k)
  | .bare n _ | .lookalike n _ => some (.serial n)
  | _ => none

/-- The very same value: one thing, or a plain value of which there is only one. -/
def isSame : Value → Value → Bool
  | .null, .null => true
  | .bool a, .bool b => a == b
  | .int a, .int b => a == b && -5 ≤ a && a ≤ 256
  | .text a, .text b => a == b && a.length ≤ 1
  | a, b =>
      match a.identity?, b.identity? with
      | some i, some j => i = j
      | _, _ => false

end Value

end NinjaFile
