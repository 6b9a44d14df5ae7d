import NinjaFile.Configuration
import NinjaFile.Subscript

/-!
# Settings

What a caller hands over for a configuration.  Usually that is a dictionary, but
anything will do that can be asked whether it has a key and what it has under it; what
counts as false stands for no settings at all.
-/

namespace NinjaFile.Settings

/-- The entries of a dictionary that have a text for a key. -/
def textEntries (entries : List (Value × Value)) : List (String × Value) :=
  entries.filterMap fun (k, v) => k.text?.map fun key => (key, v)

/-- What a value has for a setting, if it has something. -/
def askFor (given : Value) (key : String) (fallback : Value) : Action Value := do
  if ← given.holds key then given.item (.text key) (Text.quoted key) else return fallback

/-- Settings taken one by one from a value that is asked for each. -/
def ask (given : Value) : List (String × Value) → Action (List (String × Value))
  | [] => return []
  | (key, fallback) :: rest => do
      let v ← askFor given key fallback
      return (key, v) :: (← ask given rest)

/-- The default settings with those that a value gives in their place. -/
def ofValue (given : Value) (defaults : List (String × Value)) :
    Action (List (String × Value)) := do
  if ← given.truth then
    match given with
    | .mapping entries => return Configuration.resolve (textEntries entries) defaults
    | given => ask given defaults
  else return defaults

/-- The value of a setting that is among the defaults. -/
def value (settings : List (String × Value)) (key : String) : Value :=
  Configuration.value settings key .null

end NinjaFile.Settings
