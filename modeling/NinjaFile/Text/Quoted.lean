import NinjaFile.Text.Digit
import NinjaFile.Text.Printable

/-!
# Quoted text

A text is shown between single quotes, or between double quotes when it holds a
single quote and no double one.  The quote in use and the backslash get a
backslash; newline, carriage return and tab have letters of their own; any
other character that is not printable is shown by its code in hexadecimal, as
short as two, four or eight digits allow.
-/

namespace NinjaFile.Text

def quoteMark (text : List Char) : Char :=
  if text.contains '\'' && !text.contains '"' then '"' else '\''

def quoteChar (isPlain : Char → Bool) (mark c : Char) : List Char :=
  if c == mark || c == '\\' then ['\\', c]
  else if c == '\n' then ['\\', 'n']
  else if c == '\r' then ['\\', 'r']
  else if c == '\t' then ['\\', 't']
  else if isPlain c then [c]
  else if c.toNat < 0x100 then '\\' :: 'x' :: hexDigits 2 c.toNat
  else if c.toNat < 0x10000 then '\\' :: 'u' :: hexDigits 4 c.toNat
  else '\\' :: 'U' :: hexDigits 8 c.toNat

/-- A text in quotes, where what is not plain is shown by its code. -/
def quotedWith (isPlain : Char → Bool) (text : String) : String :=
  let mark := quoteMark text.toList
  String.ofList (mark :: text.toList.flatMap (quoteChar isPlain mark) ++ [mark])

def quoted (text : String) : String := quotedWith isPrintable text

def quotedAscii (text : String) : String :=
  quotedWith (fun c => isPrintable c && c.toNat < 128) text

/-- Bytes are quoted like text, with every byte outside printable ASCII in hexadecimal. -/
def quoteByte (mark : Char) (b : UInt8) : List Char :=
  let c := Char.ofNat b.toNat
  if c == mark || c == '\\' then ['\\', c]
  else if c == '\n' then ['\\', 'n']
  else if c == '\r' then ['\\', 'r']
  else if c == '\t' then ['\\', 't']
  else if 32 ≤ b.toNat ∧ b.toNat < 127 then [c]
  else '\\' :: 'x' :: hexDigits 2 b.toNat

def quotedBytes (bytes : List UInt8) : String :=
  let mark := quoteMark (bytes.map fun b => Char.ofNat b.toNat)
  String.ofList ('b' :: mark :: bytes.flatMap (quoteByte mark) ++ [mark])

end NinjaFile.Text
