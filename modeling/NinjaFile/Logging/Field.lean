import NinjaFile.Number.Notation
import NinjaFile.Number.Whole
import NinjaFile.Text.Quoted

/-!
# Fields of a line

A field is written `%(key)`, then flags, a least width, a precision behind a point, a
letter for the size that means nothing, and a letter for the way it is written.
-/

namespace NinjaFile.Logging

/-- What stands for the time of a line, and how many characters it stands for. -/
def timeMark : String := "<time>"
def timeLength : Nat := 23

/-- What a line has under a key. -/
inductive Datum where
  | text (s : String)
  | level (n : Whole)
  | time
  /-- The arguments of a message, of which there are none. -/
  | arguments
  | nothing
deriving DecidableEq, Repr

namespace Datum

def toText : Datum → String
  | .text s => s
  | .level n => n.toText
  | .time => timeMark
  | .arguments => "()"
  | .nothing => "None"

/-- Texts and the time are shown in quotes. -/
def display : Datum → String
  | .text s => Text.quoted s
  | .time => "'" ++ timeMark ++ "'"
  | d => d.toText

def displayAscii : Datum → String
  | .text s => Text.quotedAscii s
  | d => d.display

/-- How many characters the mark of the time lacks. -/
def extraLength : Datum → Nat
  | .time => timeLength - timeMark.length
  | _ => 0

end Datum

structure Field where
  key : Option (List Char)
  flags : List Char
  width : Nat
  precision : Option Nat
  letter : Char
deriving DecidableEq, Repr

namespace Field

def isFlag (c : Char) : Bool := ['-', '+', ' ', '#', '0'].contains c
def isSize (c : Char) : Bool := ['h', 'l', 'L'].contains c

/-- The key up to the parenthesis that closes it; others inside have to pair up. -/
def takeKey? (depth : Nat) (read : List Char) : List Char → Option (List Char × List Char)
  | [] => none
  | ')' :: rest =>
      if depth = 0 then some (read.reverse, rest) else takeKey? (depth - 1) (')' :: read) rest
  | '(' :: rest => takeKey? (depth + 1) ('(' :: read) rest
  | c :: rest => takeKey? depth (c :: read) rest

/-- A point without digits behind it stands for zero. -/
def takePrecision : List Char → Option Nat × List Char
  | '.' :: rest =>
      let (digits, rest) := rest.span Double.isDigit
      (some (Double.digitsValue digits), rest)
  | rest => (none, rest)

def dropSize : List Char → List Char
  | c :: rest => if isSize c then rest else c :: rest
  | [] => []

/-- What follows the key of a field, and the text behind the field. -/
def takeRest? (key : Option (List Char)) (text : List Char) : Option (Field × List Char) :=
  let (flags, text) := text.span isFlag
  let (digits, text) := text.span Double.isDigit
  let (precision, text) := takePrecision text
  match dropSize text with
  | [] => none
  | letter :: rest => some (⟨key, flags, Double.digitsValue digits, precision, letter⟩, rest)

/-- The field behind a percent sign, and the text behind the field. -/
def take? : List Char → Option (Field × List Char)
  | '(' :: rest =>
      match takeKey? 0 [] rest with
      | none => none
      | some (key, rest) => takeRest? (some key) rest
  | text => takeRest? none text

/-! ## Writing a field -/

def has (f : Field) (flag : Char) : Bool := f.flags.contains flag

/-- Fills up to the width, which counts `extra` characters more than there are. -/
def pad (f : Field) (extra : Nat) (text : List Char) : List Char :=
  let blanks := List.replicate (f.width - (text.length + extra)) ' '
  if f.has '-' then text ++ blanks else blanks ++ text

def ofText (f : Field) (extra : Nat) (text : String) : List Char :=
  f.pad extra (text.toList.take (f.precision.getD text.length))

/-- A number in its parts: a sign, the mark of its base, and digits.  Zeros stand
between the mark and the digits. -/
def ofNumber (f : Field) (negative : Bool) (mark digits : List Char) : List Char :=
  let sign : List Char :=
    if negative then ['-'] else if f.has '+' then ['+'] else if f.has ' ' then [' '] else []
  let front := sign ++ mark
  if f.has '0' && !f.has '-' then
    front ++ List.replicate (f.width - (front.length + digits.length)) '0' ++ digits
  else f.pad 0 (front ++ digits)

/-- Digits with zeros in front, as many as the precision asks for. -/
def lengthened (f : Field) (digits : List Char) : List Char :=
  List.replicate (f.precision.getD 0 - digits.length) '0' ++ digits

def upper (digits : List Char) : List Char := digits.map Char.toUpper

def inBase (f : Field) (base : Nat) (n : Int) : List Char :=
  let mark : List Char := if f.has '#' && base ≠ 10 then ['0', f.letter] else []
  let digits := f.lengthened (Nat.toDigits base n.natAbs)
  f.ofNumber (n < 0) mark (if f.letter = 'X' then upper digits else digits)

/-- A number with places, an exponent, or whichever of them is plainer. -/
def inPlaces (f : Field) (n : Int) : List Char :=
  let precision := f.precision.getD 6
  let write :=
    match f.letter.toLower with
    | 'e' => Double.scientific
    | 'f' => Double.fixed
    | _ => Double.general
  let digits := (write (f.has '#') precision n.natAbs 1).toList
  f.ofNumber (n < 0) [] (if f.letter.isUpper then upper digits else digits)

/-- The character of a code, or a text of one character. -/
def character? : Datum → Option Char
  | .level n => if 0 ≤ n.value ∧ n.value.toNat.isValidChar then some (Char.ofNat n.value.toNat) else none
  | .text s =>
      match s.toList with
      | [c] => some c
      | _ => none
  | _ => none

/-- A datum in the form that a field asks for, if it has that form. -/
def write? (f : Field) (d : Datum) : Option (List Char) :=
  match f.letter with
  | 's' => some (f.ofText d.extraLength d.toText)
  | 'r' => some (f.ofText d.extraLength d.display)
  | 'a' => some (f.ofText d.extraLength d.displayAscii)
  | 'c' => (character? d).map fun c => f.pad 0 [c]
  | letter =>
      match d with
      | .level n =>
          if ['d', 'i', 'u'].contains letter then some (f.inBase 10 n.value)
          else if letter = 'o' then some (f.inBase 8 n.value)
          else if letter = 'x' ∨ letter = 'X' then some (f.inBase 16 n.value)
          else if ['e', 'E', 'f', 'F', 'g', 'G'].contains letter then some (f.inPlaces n.value)
          else none
      | _ => none

end Field

end NinjaFile.Logging
