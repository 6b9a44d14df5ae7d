import NinjaFile.Number.Double
import NinjaFile.Text.Digit

/-!
# Decimal texts

Doubles as people write them: digits of any script, with blanks around them and single
underscores between two digits, or a word for what is not finite.
-/

namespace NinjaFile.Double

def isBlank (c : Char) : Bool :=
  (9 ≤ c.toNat && c.toNat ≤ 13) || (0x1C ≤ c.toNat && c.toNat ≤ 0x20) ||
    (0x2000 ≤ c.toNat && c.toNat ≤ 0x200A) ||
    [0x85, 0xA0, 0x1680, 0x2028, 0x2029, 0x202F, 0x205F, 0x3000].contains c.toNat

def trim (text : List Char) : List Char :=
  ((text.dropWhile isBlank).reverse.dropWhile isBlank).reverse

/-- A digit of any script as one of the ten that are calculated with. -/
def plainDigit (c : Char) : Char :=
  match Text.zeros.find? fun start => start ≤ c.toNat && c.toNat < start + 10 with
  | some start => Char.ofNat (48 + (c.toNat - start))
  | none => c

/-- Takes the underscores out, each of which has to stand between two digits. -/
def withoutUnderscores? (afterDigit : Bool) : List Char → Option (List Char)
  | [] => some []
  | '_' :: c :: rest =>
      if afterDigit && isDigit c then (withoutUnderscores? true rest).map (c :: ·) else none
  | c :: rest =>
      if c = '_' then none else (withoutUnderscores? (isDigit c) rest).map (c :: ·)

def isInfinity (word : List Char) : Bool := word = "inf".toList || word = "infinity".toList

/-- The double that a text stands for. -/
def ofText? (text : String) : Option Double :=
  match withoutUnderscores? false ((trim text.toList).map plainDigit) with
  | none => none
  | some plain =>
      let (negative, rest) := takeSign plain
      let word := rest.map Char.toLower
      if isInfinity word then some (.infinite negative)
      else if word = "nan".toList then some .nan
      else ofDigits? negative rest

end NinjaFile.Double
