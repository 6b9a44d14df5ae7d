import NinjaFile.Handle
import NinjaFile.Logging.View

/-!
# Arenas

An arena holds the statements of a document.  Whatever is appended takes on its
ownership and keeps its index for good, so a handle, which is an arena with an
index, always leads to the same statement.
-/

namespace NinjaFile

namespace Value

/-- What a value says its kind is. -/
def kindOf (v : Value) : Action Value := v.member "kind"

/-- The word for the kind of a value in log lines. -/
def kindWord (v : Value) : Action String := do
  match ← v.kindOf with
  | .kind k => return k.word
  | other =>
      match ← other.member "name" with
      | .text s => return s.toLower
      | name => .fail (.noAttribute name.typeName "lower")

end Value

namespace Arena

def make (ownership : Ownership) (view : Option View) : Action Arena := do
  let statements ← ListId.make ownership true []
  return ⟨ownership, statements, view⟩

def member (arena : Arena) (name : String) : Action Value := (Value.object (.arena arena)).member name

/-- A node takes on the arena's ownership; nothing else has one. -/
def adopt (arena : Arena) (v : Value) : Action Unit :=
  match v.node? with
  | some node => do node.adopt (← arena.member "ownership")
  | none => return ()

def logAppended (arena : Arena) (v : Value) (index : Nat) : Action Unit := do
  let view ← Program.ofExcept ((← arena.member "logger").logger? "debug")
  let word ← v.kindWord
  logBy view Logging.debugLevel
    ("Appended " ++ word ++ " statement at index " ++ toString index)

/-- Appends anything and gives its index. -/
def append (arena : Arena) (v : Value) : Action Nat := do
  arena.adopt v
  let index ← arena.statements.add v
  arena.logAppended v index
  return index

end Arena

/-! ## Handles to what was appended -/

namespace Value

/-- Appends a value to what should be an arena. -/
def append (place v : Value) : Action Nat :=
  match place with
  | .object (.arena arena) => arena.append v
  | place => .fail (.noAttribute place.typeName "append")

end Value

namespace Handle

/-- A handle into something that may be no arena, with an index of any kind. -/
def make (expected : Expected) (statements index : Value) : Action Handle :=
  let (arena, place) : Arena × List (String × Value) :=
    match statements with
    | .object (.arena arena) => (arena, [])
    | v => (⟨.single, ⟨0⟩, none⟩, [("statements", v)])
  let (i, spot) : Int × List (String × Value) :=
    match index with
    | .int n => (n, [])
    | v => (0, [("index", v)])
  .update fun s =>
    let (serial, s) := s.insertSerial (place ++ spot)
    (⟨serial, expected, arena, i⟩, s)

end Handle

/-- Appends a value and gives a handle to it. -/
def Value.insert (place : Value) (expected : Expected) (v : Value) : Action Handle := do
  let index ← place.append v
  Handle.make expected place (.int index)

end NinjaFile
