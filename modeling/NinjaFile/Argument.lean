import NinjaFile.Fault
import NinjaFile.Value

/-!
# Arguments

Names, values and paths come in as values of many types and leave as text.
Truth values are words, whole numbers have no point, bytes must be UTF-8, and a
path gives the text it goes by.
-/

namespace NinjaFile

namespace Value

def decodeBytes (content : List UInt8) : Except Fault String :=
  match Text.Utf8.decode content with
  | .ok s => .ok s
  | .error fault => .error (.undecodable fault)

/-- A whole number is written without a point. -/
def floatText (x : Double) : String :=
  match x.toInt? with
  | some n => toString n
  | none => x.toText

/-- The text of a single argument. -/
def toArgument : Value → Except Fault String
  | .text s => .ok s
  | .bool b => .ok (if b then "true" else "false")
  | .float x => .ok (floatText x)
  | .int n => .ok (toString n)
  | .path p | .pathText p => .ok p
  | .pathBytes content => decodeBytes content
  | .bytes .fixed content | .bytes .growable content => decodeBytes content
  | v => .error (.unconvertible v.typeName)

/-- Counts as one argument even where a list of them is welcome. -/
def isArgument : Value → Bool
  | .text _ | .bool _ | .float _ | .int _ | .path _ | .pathText _ | .pathBytes _ => true
  | .bytes .fixed _ | .bytes .growable _ => true
  | _ => false

/-- The numbers that bytes are made of. -/
def byteItems (content : List UInt8) : List Value :=
  content.map fun b => .int b.toNat

/-- How a value gives its items: at once, or by asking the store. -/
inductive Items where
  | plain (items : List Value)
  | list (id : ListId)
  | source (id : SourceId)
  | none
deriving Repr

def items : Value → Items
  | .text s => .plain (s.toList.map fun c => .text (String.ofList [c]))
  | .bytes _ content => .plain (byteItems content)
  | .list items | .tuple items => .plain items
  | .mapping entries => .plain (entries.map (·.1))
  | .range start stop step => .plain (rangeItems start stop step)
  | .source id => .source id
  | .object (.list id) => .list id
  | .object (.arena arena) => .list arena.statements
  | _ => .none

/-- The texts of some values up to the first that has none, with that one's fault
and the values behind it. -/
def takeArguments : List Value → List String × Option (Fault × List Value)
  | [] => ([], none)
  | v :: rest =>
      match v.toArgument with
      | .error fault => ([], some (fault, rest))
      | .ok s =>
          let (texts, stop) := takeArguments rest
          (s :: texts, stop)

/-- The texts of some values, or the fault of the first that has none. -/
def toArguments : List Value → Except Fault (List String)
  | [] => .ok []
  | v :: rest => do
      let s ← v.toArgument
      let texts ← toArguments rest
      return s :: texts

end Value

end NinjaFile
