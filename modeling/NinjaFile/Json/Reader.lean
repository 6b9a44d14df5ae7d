import NinjaFile.Json.Token

/-!
# Reading JSON

Tokens are put together with a stack of the containers that are open.  Limits say in
how many of them a value may lie, and how long a number may be.
-/

namespace NinjaFile.Json

/-- What a reader takes; nothing is limited where there is no number. -/
structure Limits where
  depth : Option Nat
  digits : DigitLimit
deriving DecidableEq, Repr

def Limits.none : Limits := ⟨.none, .none⟩

/-- A value may lie in this many containers. -/
def Limits.admits (limits : Limits) (depth : Nat) : Bool :=
  match limits.depth with
  | .none => true
  | some n => depth ≤ n

/-- An open container with what it holds so far, the last thing first; an object
also has the key of the value that comes next. -/
inductive Frame where
  | list (items : List Json)
  | object (entries : List (String × Json)) (key : String)
deriving Repr

/-- What may come next. -/
inductive Expect where
  | value
  /-- The first item of a list, or its end. -/
  | item
  /-- The first key of an object, or its end. -/
  | firstKey (entries : List (String × Json))
  | key (entries : List (String × Json))
  | colon
  /-- A comma, or the end of the innermost container. -/
  | more
  /-- Nothing. -/
  | nothing (v : Json)
deriving Repr

structure Reading where
  stack : List Frame
  expect : Expect
deriving Repr

/-- Hands a complete value to the innermost container. -/
def deliver (stack : List Frame) (v : Json) : Reading :=
  match stack with
  | [] => ⟨[], .nothing v⟩
  | .list items :: rest => ⟨.list (v :: items) :: rest, .more⟩
  | .object entries key :: rest => ⟨.object ((key, v) :: entries) key :: rest, .more⟩

/-- A value, or the start of one. -/
def beginValue (limits : Limits) (stack : List Frame) (token : Token) : Option Reading :=
  if !limits.admits stack.length then none
  else
    match token with
    | .text s => some (deliver stack (.text s))
    | .scalar v => some (deliver stack v)
    | .openList => some ⟨.list [] :: stack, .item⟩
    | .openObject => some ⟨stack, .firstKey []⟩
    | _ => none

def advance (limits : Limits) (r : Reading) (token : Token) : Option Reading :=
  match r.expect with
  | .value => beginValue limits r.stack token
  | .item =>
      match token, r.stack with
      | .closeList, .list items :: rest => some (deliver rest (.list items.reverse))
      | token, stack => beginValue limits stack token
  | .firstKey entries =>
      match token with
      | .closeObject => some (deliver r.stack (.object entries.reverse))
      | .text key => some ⟨.object entries key :: r.stack, .colon⟩
      | _ => none
  | .key entries =>
      match token with
      | .text key => some ⟨.object entries key :: r.stack, .colon⟩
      | _ => none
  | .colon =>
      match token with
      | .colon => some ⟨r.stack, .value⟩
      | _ => none
  | .more =>
      match token, r.stack with
      | .comma, .list items :: rest => some ⟨.list items :: rest, .value⟩
      | .comma, .object entries _ :: rest => some ⟨rest, .key entries⟩
      | .closeList, .list items :: rest => some (deliver rest (.list items.reverse))
      | .closeObject, .object entries _ :: rest =>
          some (deliver rest (.object entries.reverse))
      | _, _ => none
  | .nothing _ => none

def readFrom (limits : Limits) (r : Reading) : List Token → Option Json
  | [] =>
      match r.expect with
      | .nothing v => some v
      | _ => none
  | token :: rest =>
      match advance limits r token with
      | none => none
      | some r => readFrom limits r rest

/-- The value a text stands for. -/
def read? (limits : Limits) (text : String) : Option Json :=
  match tokens? limits.digits text.toList with
  | none => none
  | some tokens => readFrom limits ⟨[], .value⟩ tokens

/-- The value of a key; the last of equal keys counts. -/
def lookup (key : String) : List (String × Json) → Option Json
  | [] => none
  | (k, v) :: rest =>
      match lookup key rest with
      | some w => some w
      | none => if k = key then some v else none

end NinjaFile.Json
