/-!
# Ranges of characters

A class of characters is held as the ranges of codes that belong to it, in ascending
order and apart from each other.
-/

namespace NinjaFile.Text

/-- A first and a last code. -/
abbrev CodeRange := Nat × Nat

/-- Looks for the range that could hold `n` between the places `lo` and `hi`. -/
def searchRanges (ranges : Array CodeRange) (n : Nat) : Nat → Nat → Nat → Bool
  | 0, _, _ => false
  | fuel + 1, lo, hi =>
      if lo < hi then
        let mid := (lo + hi) / 2
        match ranges[mid]? with
        | none => false
        | some (first, last) =>
            if n < first then searchRanges ranges n fuel lo mid
            else if last < n then searchRanges ranges n fuel (mid + 1) hi
            else true
      else false

def inRanges (ranges : Array CodeRange) (c : Char) : Bool :=
  searchRanges ranges c.toNat (ranges.size + 1) 0 ranges.size

end NinjaFile.Text
