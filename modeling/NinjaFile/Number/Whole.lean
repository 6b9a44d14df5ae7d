/-!
# Whole numbers

A whole number can be given as a truth value, which counts as one or zero and keeps
its own look.
-/

namespace NinjaFile

inductive Whole where
  | number (n : Int)
  | truth (b : Bool)
deriving DecidableEq, Repr

namespace Whole

def value : Whole → Int
  | .number n => n
  | .truth b => if b then 1 else 0

def toText : Whole → String
  | .number n => toString n
  | .truth b => if b then "True" else "False"

def typeName : Whole → String
  | .number _ => "int"
  | .truth _ => "bool"

@[simp] theorem value_number (n : Int) : (number n).value = n := rfl

end Whole

end NinjaFile
