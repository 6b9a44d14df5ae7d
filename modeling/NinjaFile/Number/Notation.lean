import NinjaFile.Number.Shortest

/-!
# Numbers with a given precision

A quotient can be written with a given count of places, as one digit in front of the
point with a power of ten, or in the plainer of these two ways with a given count of
digits.  What is cut off is rounded, a half to the even neighbour.
-/

namespace NinjaFile.Double

/-- Digits around a point, which is left out if nothing follows it. -/
def pointed (keepsPoint : Bool) (whole places : List Char) : String :=
  String.ofList (if places = [] ∧ !keepsPoint then whole else whole ++ '.' :: places)

/-- The last `count` decimal digits of a number. -/
def lastDigits (count n : Nat) : List Char :=
  let digits := (toString n).toList
  List.replicate (count - digits.length) '0' ++ digits.drop (digits.length - count)

def fixedParts (places num den : Nat) : List Char × List Char :=
  let unit := Nat.pow 10 places
  let n := roundDiv (num * unit) den
  ((toString (n / unit)).toList, if places = 0 then [] else lastDigits places (n % unit))

/-- The first `places + 1` digits of a quotient, and the power of ten of the first. -/
def leadingDigits (places num den : Nat) : List Char × Int :=
  if num = 0 then (lastDigits (places + 1) 0, 0)
  else
    let power := powerBelow num den
    let (a, b) := timesPowerOfTen num (places - power)
    let n := roundDiv a (b * den)
    if n = Nat.pow 10 (places + 1) then (lastDigits (places + 1) (n / 10), power + 1)
    else (lastDigits (places + 1) n, power)

def fixed (keepsPoint : Bool) (places num den : Nat) : String :=
  let (whole, fraction) := fixedParts places num den
  pointed keepsPoint whole fraction

def scientific (keepsPoint : Bool) (places num den : Nat) : String :=
  let (digits, power) := leadingDigits places num den
  pointed keepsPoint (digits.take 1) (digits.drop 1) ++ exponentText power

def withoutTrailingZeros (digits : List Char) : List Char :=
  (digits.reverse.dropWhile (· = '0')).reverse

/-- With `count` digits; zeros at the end of the places go unless `keepsZeros`. -/
def general (keepsZeros : Bool) (count num den : Nat) : String :=
  let places := count - 1
  let trim (digits : List Char) : List Char :=
    if keepsZeros then digits else withoutTrailingZeros digits
  let (digits, power) := leadingDigits places num den
  if -4 ≤ power ∧ power < max count 1 then
    let (whole, fraction) := fixedParts (places - power).toNat num den
    pointed keepsZeros whole (trim fraction)
  else pointed keepsZeros (digits.take 1) (trim (digits.drop 1)) ++ exponentText power

end NinjaFile.Double
