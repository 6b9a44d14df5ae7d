import NinjaFile.Number.Double

/-!
# Shortest decimals

The numbers nearer to a double than to any other form an interval, with its ends
if the mantissa is even.  `digits` is the decimal of the fewest digits in that
interval, and of those the one nearest to the double.  It looks at the two
neighbours of the double among the decimals of one digit, of two, and so on; a
decimal in the interval has one of them on its own grid.
-/

namespace NinjaFile.Double

/-- `n * 10 ^ power * scale`, for a power that may be negative, over the denominator it brings. -/
def timesPowerOfTen (n : Nat) (power : Int) : Nat × Nat :=
  if 0 ≤ power then (n * Nat.pow 10 power.toNat, 1) else (n, Nat.pow 10 (-power).toNat)

/-- A positive double as a quotient of integers. -/
def quotient (mantissa : Nat) (exponent : Int) : Nat × Nat :=
  if 0 ≤ exponent then (mantissa * Nat.pow 2 exponent.toNat, 1)
  else (mantissa, Nat.pow 2 (-exponent).toNat)

/-- The interval around `mantissa * 2 ^ exponent`, in units of `2 ^ (exponent - 2)`.
Just above a power of two the doubles below are twice as close. -/
structure Interval where
  low : Nat
  high : Nat
  closed : Bool

def intervalAround (mantissa : Nat) (exponent : Int) : Interval where
  low :=
    if mantissa = mantissaLimit / 2 ∧ leastExponent < exponent then 4 * mantissa - 1
    else 4 * mantissa - 2
  high := 4 * mantissa + 2
  closed := mantissa % 2 == 0

/-- `n * 10 ^ power` lies in the interval. -/
def Interval.holds (i : Interval) (exponent : Int) (n : Nat) (power : Int) : Bool :=
  let (a, b) := timesPowerOfTen n power
  let (lowNum, den) := quotient i.low (exponent - 2)
  let (highNum, _) := quotient i.high (exponent - 2)
  if i.closed then lowNum * b ≤ a * den && a * den ≤ highNum * b
  else lowNum * b < a * den && a * den < highNum * b

/-- The largest power of ten not above a positive quotient. -/
def powerBelow (num den : Nat) : Int :=
  if den ≤ num then (digitCount (num / den) : Int) - 1
  else
    let guess := -((digitCount (den / num) : Int))
    let (a, b) := timesPowerOfTen 1 (guess + 1)
    if a * den ≤ num * b then guess + 1 else guess

/-- The nearer of the neighbours on the grid of `power` that lies in the interval,
the even one of two equally near ones. -/
def neighbour? (i : Interval) (exponent : Int) (num den : Nat) (power : Int) : Option Nat :=
  let (a, b) := timesPowerOfTen 1 power
  let below := num * b / (a * den)
  let rest := 2 * (num * b % (a * den))
  match i.holds exponent below power, i.holds exponent (below + 1) power with
  | false, false => none
  | true, false => some below
  | false, true => some (below + 1)
  | true, true =>
      if rest < a * den then some below
      else if a * den < rest then some (below + 1)
      else if below % 2 = 0 then some below
      else some (below + 1)

/-- Tries the grids from `power` down. -/
def searchGrids (i : Interval) (exponent : Int) (num den : Nat) : Nat → Int → Nat × Int
  | 0, power =>
      let (a, b) := timesPowerOfTen 1 power
      (num * b / (a * den), power)
  | fuel + 1, power =>
      match neighbour? i exponent num den power with
      | some n => (n, power)
      | none => searchGrids i exponent num den fuel (power - 1)

/-- The digits of the shortest decimal of a positive double and the power of ten
they are multiplied with. -/
def shortest (mantissa : Nat) (exponent : Int) : Nat × Int :=
  let (num, den) := quotient mantissa exponent
  searchGrids (intervalAround mantissa exponent) exponent num den 17 (powerBelow num den)

/-- Digits without trailing zeros, with the power of ten raised to match. -/
def dropZeros : Nat → Nat → Int → Nat × Int
  | 0, n, power => (n, power)
  | fuel + 1, n, power =>
      if n ≠ 0 ∧ n % 10 = 0 then dropZeros fuel (n / 10) (power + 1) else (n, power)

/-! ## Written form -/

/-- How a decimal is laid out: the exponents written without `e`, and whether a
whole number keeps a point. -/
structure Style where
  leastPower : Int
  greatestPower : Int
  wholeMark : String

/-- Powers of ten from -4 to 15 are written out, others with a signed exponent
of at least two digits; a whole number ends in `.0`. -/
def style : Style := ⟨-4, 15, ".0"⟩

def exponentText (power : Int) : String :=
  let digits := toString power.natAbs
  (if power < 0 then "e-" else "e+") ++ (if digits.length < 2 then "0" ++ digits else digits)

def zeros (n : Nat) : String := String.ofList (List.replicate n '0')

/-- Lays out `digits * 10 ^ power`. -/
def layout (s : Style) (digits : String) (power : Int) : String :=
  let top : Int := power + digits.length - 1
  if top < s.leastPower ∨ s.greatestPower < top then
    let places := String.ofList (digits.toList.drop 1)
    String.ofList (digits.toList.take 1) ++
      (if places = "" then "" else "." ++ places) ++ exponentText top
  else if 0 ≤ power then digits ++ zeros power.toNat ++ s.wholeMark
  else if 0 ≤ top then
    String.ofList (digits.toList.take (top.toNat + 1)) ++ "." ++
      String.ofList (digits.toList.drop (top.toNat + 1))
  else "0." ++ zeros ((-top).toNat - 1) ++ digits

def toText : Double → String
  | .nan => "nan"
  | .infinite negative => if negative then "-inf" else "inf"
  | .finite negative mantissa exponent =>
      let text :=
        if mantissa = 0 then "0" ++ style.wholeMark
        else
          let (n, power) := shortest mantissa exponent
          let (n, power) := dropZeros 400 n power
          layout style (toString n) power
      if negative then "-" ++ text else text

end NinjaFile.Double
