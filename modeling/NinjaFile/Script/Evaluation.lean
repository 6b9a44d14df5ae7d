import NinjaFile.Number.Decimal
import NinjaFile.Rendering
import NinjaFile.Script.Session
import NinjaFile.Text.Digit

/-!
# Evaluation

The values of expressions.  Everything with an identity that an expression names is
new, apart from the objects that it takes by name; an expression that has no value
says why.
-/

namespace NinjaFile.Script

/-- A value that is looked for in a session, which may be changed by that. -/
abbrev Evaluation := ExceptT Fault (StateM Session)

namespace Evaluation

def float (text : String) : Evaluation Value :=
  match Double.ofText? text with
  | some x => return .float x
  | none => throw (.raised ("could not convert string to float: " ++ Text.quoted text))

def bytes (form : ByteForm) (digits : String) : Evaluation Value :=
  match Text.hexBytes 0 digits.toList with
  | .ok content => return .bytes form content
  | .error position =>
      throw (.raised
        ("non-hexadecimal number found in fromhex() arg at position " ++ toString position))

/-- The text of a value as it is shown. -/
def display (v : Value) : Evaluation String := do
  match (v.display.alone (← get).store).1 with
  | .ok text => return text
  | .error fault => throw fault

def ownership (name : Value) : Evaluation Value := do
  match name with
  | .text "single" => return .ownership .single
  | .text "shared" => return .ownership .shared
  | .ownership o => return .ownership o
  | v => throw (.raised ((← display v) ++ " is not a valid Ownership"))

/-! ## Ranges -/

def bound (v : Value) : Evaluation Int :=
  match v.int? with
  | some n => return n
  | none =>
      throw (.unsuitable
        ("'" ++ v.typeName ++ "' object cannot be interpreted as an integer"))

def range (bounds : List Value) : Evaluation Value := do
  match bounds with
  | [] => throw (.unsuitable "range expected at least 1 argument, got 0")
  | [stop] => return .range 0 (← bound stop) 1
  | [start, stop] => return .range (← bound start) (← bound stop) 1
  | [start, stop, step] =>
      let start ← bound start
      let stop ← bound stop
      let step ← bound step
      if step = 0 then throw (.raised "range() arg 3 must not be zero")
      else return .range start stop step
  | bounds =>
      throw (.unsuitable
        ("range expected at most 3 arguments, got " ++ toString bounds.length))

/-! ## New things -/

def serial : Evaluation Serial :=
  modifyGet fun s =>
    let (n, store) := s.store.nextSerial
    (n, { s with store := store })

def source (items : List Value) (during : List Step) (raises : Option String) :
    Evaluation Value :=
  modifyGet fun s =>
    let (id, store) := s.store.insertSource ⟨items, .ready, raises⟩
    (.source id, { s with store := store, bodies := (id, during) :: s.bodies })

/-- One more entry of a dictionary, under a value that can be a key. -/
def putEntry (k v : Value) (entries : List (Value × Value)) :
    Evaluation (List (Value × Value)) := do
  let store := (← get).store
  match Value.unhashable? store k with
  | some typeName => throw (.unhashable typeName)
  | none => return Value.putEntry store k v entries

def named (name : String) : Evaluation Value := do
  match (← get).lookup name with
  | .ok v => return v
  | .error fault => throw fault

end Evaluation

mutual

/-- The value of an expression; every source in it is a new one. -/
def Expr.evaluate (e : Expr) : Evaluation Value :=
  match e with
  | .constant v => return v
  | .float text => Evaluation.float text
  | .bytes form digits => Evaluation.bytes form digits
  | .ownership name => do Evaluation.ownership (← name.evaluate)
  | .range bounds => do Evaluation.range (← evaluateAll bounds)
  | .list items => do return .list (← evaluateAll items)
  | .tuple items => do return .tuple (← evaluateAll items)
  | .mapping entries => do return .mapping (← evaluateEntries [] entries)
  | .source items during raises => do
      Evaluation.source (← evaluateAll items) during raises
  | .bare => do return .bare (← Evaluation.serial) "object"
  | .lookalike kind => do
      let k ← kind.evaluate
      return .lookalike (← Evaluation.serial) k
  | .named name => Evaluation.named name

def evaluateAll (items : List Expr) : Evaluation (List Value) :=
  match items with
  | [] => return []
  | e :: rest => do
      let v ← e.evaluate
      return v :: (← evaluateAll rest)

/-- Puts entries one by one into a dictionary. -/
def evaluateEntries (merged : List (Value × Value)) (entries : List (Expr × Expr)) :
    Evaluation (List (Value × Value)) :=
  match entries with
  | [] => return merged
  | (key, value) :: rest => do
      let k ← key.evaluate
      let v ← value.evaluate
      evaluateEntries (← Evaluation.putEntry k v merged) rest

end

def evaluateNamed (entries : List (String × Expr)) : Evaluation (List (String × Value)) :=
  match entries with
  | [] => return []
  | (name, e) :: rest => do
      let v ← e.evaluate
      return (name, v) :: (← evaluateNamed rest)

/-- What is handed over to something that is called. -/
def evaluateArguments (args : List Expr) (named : List (String × Expr)) :
    Evaluation (List Value × List (String × Value)) := do
  let args ← evaluateAll args
  return (args, ← evaluateNamed named)

end NinjaFile.Script
