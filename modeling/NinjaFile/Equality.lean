import NinjaFile.Attribute

/-!
# Equality

When two values count as equal.  Numbers of any type are equal by value, fixed
statements by what they say, handles by where they lead, formatters by how they
indent; everything else that lies in the store is equal only to itself.
-/

namespace NinjaFile

namespace Value

def sameDouble : Double → Double → Bool
  | .nan, _ => false
  | _, .nan => false
  | x, y => (x.isZero && y.isZero) || x == y

/-- Equality of numbers; a truth value counts as 1 or 0. -/
def sameNumber? (a b : Value) : Option Bool :=
  match a, b with
  | .float x, .float y => some (sameDouble x y)
  | .float x, b => b.int?.map fun n => x.toInt? == some n
  | a, .float y => a.int?.map fun n => y.toInt? == some n
  | a, b =>
      match a.int?, b.int? with
      | some m, some n => some (m == n)
      | _, _ => none

/-- Two ranges of the same numbers; where there is at most one number the step is no matter. -/
def sameRange (start stop step start' stop' step' : Int) : Bool :=
  let n := rangeLength start stop step
  n == rangeLength start' stop' step' &&
    (n == 0 || start == start' && (n == 1 || step == step'))

mutual

/-- Equality of values, given that of objects. -/
def sameWith (objects : Object → Object → Bool) (a b : Value) : Bool :=
  match sameNumber? a b with
  | some answer => answer
  | none =>
      match a, b with
      | .null, .null => true
      | .text a, .text b => a == b
      | .bytes _ a, .bytes _ b => a == b
      | .path a, .path b => a == b
      | .list as, .list bs => sameAll objects as bs
      | .tuple as, .tuple bs => sameAll objects as bs
      | .mapping as, .mapping bs => as.length == bs.length && sameEntries objects as bs
      | .range a b c, .range a' b' c' => sameRange a b c a' b' c'
      | .object a, .object b => objects a b
      | a, b => isSame a b

def sameAll (objects : Object → Object → Bool) (as bs : List Value) : Bool :=
  match as, bs with
  | [], [] => true
  | a :: as, b :: bs => sameWith objects a b && sameAll objects as bs
  | _, _ => false

/-- Every entry has its like among the others, in any order. -/
def sameEntries (objects : Object → Object → Bool) (as bs : List (Value × Value)) : Bool :=
  match as with
  | [] => true
  | (k, v) :: rest =>
      (bs.any fun (k', v') => sameWith objects k k' && sameWith objects v v') &&
        sameEntries objects rest bs

end

/-- The values of an attribute of two objects, where both have it. -/
def bothHave (s : Store) (same : Value → Value → Bool) (name : String) (a b : Object) : Bool :=
  match (object a).stored? s name, (object b).stored? s name with
  | some v, some w => same v w
  | _, _ => false

def sameObject (s : Store) (same : Value → Value → Bool) (a b : Object) : Bool :=
  match a, b with
  | .comment _ a, .comment _ b => a == b
  | .binding _ a, .binding _ b => a == b
  | .defaults _ a, .defaults _ b => a == b
  | .subninja _ a, .subninja _ b => a == b
  | .inclusion _ a, .inclusion _ b => a == b
  | .handle _, .handle _ =>
      bothHave s isSame "statements" a b && bothHave s same "index" a b
  | .formatter .., .formatter .. => bothHave s same "indent" a b
  | a, b => a.same b

/-- Equality where the attributes of objects are compared `depth` objects deep. -/
def sameTo (s : Store) : Nat → Value → Value → Bool
  | 0 => sameWith Object.same
  | depth + 1 => sameWith (sameObject s (sameTo s depth))

def objectDepth : Nat := 8

def same (s : Store) (a b : Value) : Bool := sameTo s objectDepth a b

/-! ## Keys -/

mutual

/-- The type of the part of a value that keeps it from being a key. -/
def unhashable? (s : Store) (v : Value) : Option String :=
  match v with
  | .list _ | .mapping _ | .object (.formatter ..) | .bytes .growable _ => some v.typeName
  | .lookalike .. => some v.typeName
  | .tuple items => firstUnhashable? s items
  | .object (.handle _) =>
      match v.stored? s "index" with
      | some (.list _) => some "list"
      | some (.mapping _) => some "dict"
      | _ => none
  | _ => none

def firstUnhashable? (s : Store) (items : List Value) : Option String :=
  match items with
  | [] => none
  | v :: rest =>
      match unhashable? s v with
      | some typeName => some typeName
      | none => firstUnhashable? s rest

end

/-- A dictionary with one more entry: of equal keys the first stays, with the new value. -/
def putEntry (s : Store) (k v : Value) : List (Value × Value) → List (Value × Value)
  | [] => [(k, v)]
  | (k', w) :: rest => if same s k' k then (k', v) :: rest else (k', w) :: putEntry s k v rest

/-- Entries without repeated keys. -/
def mergeEntries (s : Store) (entries : List (Value × Value)) : List (Value × Value) :=
  entries.foldl (fun merged (k, v) => putEntry s k v merged) []

def entry? (s : Store) (key : Value) (entries : List (Value × Value)) : Option Value :=
  (entries.find? fun e => same s e.1 key).map (·.2)

end Value

end NinjaFile
