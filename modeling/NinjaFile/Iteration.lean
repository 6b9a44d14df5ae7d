import NinjaFile.Argument
import NinjaFile.Equality

/-!
# Iteration

Taking the items out of a value, and choices that depend on them.  Lists give what
they hold at that moment; a lazy source gives its items once, and has its last steps
run before it ends.
-/

namespace NinjaFile

namespace SourceId

/-- Takes the texts of the items up to the first that has none; the items behind
that one stay in the source. -/
def takeArguments (id : SourceId) : Action (Except Fault (List String)) :=
  .update fun s =>
    let source := s.source id
    match source.state with
    | .closing => (.error .sourceBusy, s)
    | _ =>
        match Value.takeArguments source.items with
        | (_, some (fault, rest)) =>
            (.error fault, s.modifySource id fun src => { src with items := rest })
        | (texts, none) =>
            (.ok texts, s.modifySource id fun src => { src with items := [] })

def takeItems (id : SourceId) : Action (Except Fault (List Value)) :=
  .update fun s =>
    let source := s.source id
    match source.state with
    | .closing => (.error .sourceBusy, s)
    | _ => (.ok source.items, s.modifySource id fun src => { src with items := [] })

/-- Takes items up to the first that is equal to a value, and says whether there is one. -/
def takeUntil (id : SourceId) (v : Value) : Action (Except Fault Bool) :=
  .update fun s =>
    let source := s.source id
    match source.state with
    | .closing => (.error .sourceBusy, s)
    | _ =>
        let rest := source.items.dropWhile fun item => !Value.same s item v
        (.ok !rest.isEmpty, s.modifySource id fun src => { src with items := rest.drop 1 })

/-- Ends a source that has no items left. -/
def close (id : SourceId) : Action Unit := do
  let source ← Action.read fun s => s.source id
  if source.state = .finished then return ()
  else
    .modify fun s => s.modifySource id fun src => { src with state := .closing }
    .request id
    .modify fun s => s.modifySource id fun src => { src with state := .finished }
    match source.raises with
    | none => return ()
    | some text => .fail (.raised text)

def arguments (id : SourceId) : Action (List String) := do
  let texts ← Program.ofExcept (← id.takeArguments)
  id.close
  return texts

end SourceId

namespace Value

/-- All items of a value. -/
def iterate (v : Value) : Action (List Value) :=
  match v.items with
  | .plain items => return items
  | .list id => id.snapshot
  | .source id => do
      let items ← Program.ofExcept (← id.takeItems)
      id.close
      return items
  | .none => .fail (.notIterable v.typeName)

/-- How many items a value has at the moment. -/
def length (v : Value) : Action Nat :=
  match v, v.items with
  | .range start stop step, _ => return rangeLength start stop step
  | _, .plain items => return items.length
  | _, .list id => id.length
  | v, _ => .fail (.unsuitable ("object of type '" ++ v.typeName ++ "' has no len()"))

/-- Whether a value counts as true at the moment. -/
def truth (v : Value) : Action Bool :=
  match v with
  | .object (.list id) => do return 0 < (← id.length)
  | .object (.arena arena) => do return 0 < (← arena.statements.length)
  | v => return v.isTrue

/-- Whether one of the items is equal to a value. -/
def anySame (items : List Value) (v : Value) : Action Bool :=
  Action.read fun s => items.any fun item => same s item v

/-- Whether a value holds a text: as a part of a text, as a key, or as an item. -/
def holds (v : Value) (key : String) : Action Bool :=
  match v with
  | .text s => return (s.splitOn key).length ≠ 1 || key = ""
  | .bytes .window _ => return false
  | .bytes .. => .fail (.unsuitable "a bytes-like object is required, not 'str'")
  | .range .. => return false
  | v =>
      match v.items with
      | .plain items => anySame items (.text key)
      | .list id => do anySame (← id.snapshot) (.text key)
      | .source id => do
          if ← Program.ofExcept (← id.takeUntil (.text key)) then return true
          else
            id.close
            return false
      | .none => .fail (.unsuitable ("argument of type '" ++ v.typeName ++ "' is not iterable"))

/-- A single argument, or the arguments that a value gives one by one. -/
def arguments (v : Value) : Action (List String) :=
  match v with
  | .null => return []
  | v =>
      if v.isArgument then do
        return [← Program.ofExcept v.toArgument]
      else
        match v.items with
        | .plain items => Program.ofExcept (toArguments items)
        | .list id => do
            let items ← id.snapshot
            Program.ofExcept (toArguments items)
        | .source id => id.arguments
        | .none => .fail (.notIterable v.typeName)

end Value

end NinjaFile
