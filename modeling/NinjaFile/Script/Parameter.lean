import NinjaFile.Store

/-!
# Parameters

What is handed over by position or by name is matched with the parameters of what
is called; a parameter may have a value of its own.  The first parameter of
everything is the object itself.
-/

namespace NinjaFile.Script

/-- A parameter, with its value if it may be left out. -/
abbrev Parameter := String × Option Value

def needed (names : List String) : List Parameter := names.map fun name => (name, none)

/-- The first parameter, which takes the object. -/
def selfName : String := "self"

/-- What can be called: the name it is known by, its parameters behind the object, and
what it does with a value for each of them. -/
structure Callable where
  owner : String
  name : String
  parameters : List Parameter
  run : List Value → Action Value

namespace Callable

def nullary (owner name : String) (run : Action Value) : Callable :=
  ⟨owner, name, [], fun _ => run⟩

def unary (owner name parameter : String) (run : Value → Action Value) : Callable :=
  ⟨owner, name, needed [parameter], fun args => run (args.getD 0 .null)⟩

def binary (owner name first second : String) (run : Value → Value → Action Value) : Callable :=
  ⟨owner, name, needed [first, second], fun args => run (args.getD 0 .null) (args.getD 1 .null)⟩

/-! ## Complaints -/

def fullName (c : Callable) : String := c.owner ++ "." ++ c.name ++ "()"

def complain (c : Callable) (text : String) : Fault := .unsuitable (c.fullName ++ " " ++ text)

def plural (n : Nat) : String := if n = 1 then "" else "s"

/-- How many arguments are taken, and how many there were. -/
def tooMany (c : Callable) (given : Nat) : Fault :=
  let most := c.parameters.length + 1
  let least := (c.parameters.filter fun p => p.2.isNone).length + 1
  let takes :=
    if least = most then toString most ++ " positional argument" ++ plural most
    else "from " ++ toString least ++ " to " ++ toString most ++ " positional arguments"
  c.complain
    ("takes " ++ takes ++ " but " ++ toString given ++ (if given = 1 then " was" else " were") ++
      " given")

/-- Names in a row, the last one behind a word. -/
def enumerate : List String → String
  | [] => ""
  | [a] => a
  | [a, b] => a ++ " and " ++ b
  | names => ", ".intercalate names.dropLast ++ ", and " ++ names.getLastD ""

def tooFew (c : Callable) (names : List String) : Fault :=
  c.complain
    ("missing " ++ toString names.length ++ " required positional argument" ++
      plural names.length ++ ": " ++ enumerate (names.map fun name => "'" ++ name ++ "'"))

/-- What is wrong with the arguments that are given by name, if anything. -/
def namedFault? (c : Callable) (given : Nat) (named : List (String × Value)) : Option Fault :=
  let names := selfName :: c.parameters.map (·.1)
  named.findSome? fun (name, _) =>
    if (names.take given).contains name then
      some (c.complain ("got multiple values for argument '" ++ name ++ "'"))
    else if names.contains name then none
    else some (c.complain ("got an unexpected keyword argument '" ++ name ++ "'"))

/-! ## Matching -/

/-- The value of a parameter that got none by position: by name, or else its own. -/
def fallback? (named : List (String × Value)) (p : Parameter) : Option Value :=
  named.lookup p.1 <|> p.2

/-- A value for every parameter. -/
def bind (c : Callable) (args : List Value) (named : List (String × Value)) :
    Except Fault (List Value) :=
  match c.namedFault? (args.length + 1) named with
  | some fault => .error fault
  | none =>
      if c.parameters.length < args.length then .error (c.tooMany (args.length + 1))
      else
        let unfilled := c.parameters.drop args.length
        match unfilled.filter fun p => (fallback? named p).isNone with
        | [] => .ok (args ++ unfilled.filterMap (fallback? named))
        | missing => .error (c.tooFew (missing.map (·.1)))

def call (c : Callable) (args : List Value) (named : List (String × Value)) : Action Value := do
  c.run (← Program.ofExcept (c.bind args named))

end Callable

end NinjaFile.Script
