import NinjaFile.Fault
import NinjaFile.Value

/-!
# Order

Numbers of all types have a common order, and so have texts; values of other types
cannot be compared.
-/

namespace NinjaFile

namespace Double

def ofInt (n : Int) : Double := .finite (n < 0) n.natAbs 0

/-- The mantissa with its sign, at an exponent that is not above the double's own. -/
def mantissaAt (negative : Bool) (mantissa : Nat) (exponent least : Int) : Int :=
  let n : Int := mantissa * Nat.pow 2 (exponent - least).toNat
  if negative then -n else n

def le : Double → Double → Bool
  | .nan, _ => false
  | _, .nan => false
  | .infinite negative, y => negative || y == .infinite false
  | x, .infinite negative => !negative || x == .infinite true
  | .finite n m e, .finite n' m' e' =>
      mantissaAt n m e (min e e') ≤ mantissaAt n' m' e' (min e e')

def lt (x y : Double) : Bool := x.le y && !y.le x

end Double

namespace Value

def number? : Value → Option Double
  | .float x => some x
  | v => v.int?.map Double.ofInt

/-- Whether the first value is at least as great as the second. -/
def atLeast (a b : Value) : Except Fault Bool :=
  match a, b with
  | .int m, .int n => .ok (n ≤ m)
  | .text s, .text t => .ok (t ≤ s)
  | a, b =>
      match a.number?, b.number? with
      | some x, some y => .ok (y.le x)
      | _, _ => .error (.incomparable ">=" a.typeName b.typeName)

/-- Whether the first value is greater than the second. -/
def exceeds (a b : Value) : Except Fault Bool :=
  match a, b with
  | .int m, .int n => .ok (n < m)
  | .text s, .text t => .ok (t < s)
  | a, b =>
      match a.number?, b.number? with
      | some x, some y => .ok (y.lt x)
      | _, _ => .error (.incomparable ">" a.typeName b.typeName)

end Value

end NinjaFile
