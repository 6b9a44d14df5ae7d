import NinjaFile.Logging.Field
import NinjaFile.Text.Digit
import NinjaFile.Text.Word

/-!
# Line formats

A format is a text with fields.  A line of the format has in the place of a field what
the record has under its key.
-/

namespace NinjaFile.Logging

def levelName (level : Whole) : String :=
  match level.value with
  | 0 => "NOTSET"
  | 10 => "DEBUG"
  | 20 => "INFO"
  | 30 => "WARNING"
  | 40 => "ERROR"
  | 50 => "CRITICAL"
  | _ => "Level " ++ level.toText

structure Record where
  name : String
  level : Whole
  text : String
deriving DecidableEq, Repr

namespace Record

/-- What a record has under a key, if anything; the time only in a format that asks for it. -/
def datum? (record : Record) (key : String) : Option Datum :=
  match key with
  | "name" => some (.text record.name)
  | "msg" | "message" => some (.text record.text)
  | "args" => some .arguments
  | "levelno" => some (.level record.level)
  | "levelname" => some (.text (levelName record.level))
  | "exc_info" | "exc_text" | "stack_info" => some .nothing
  | "threadName" => some (.text "MainThread")
  | "processName" => some (.text "MainProcess")
  | "asctime" => some .time
  | _ => none

end Record

/-! ## Formats -/

def defaultFormat : String :=
  "%(asctime)s - %(name)s - %(levelname)s - %(message)s"

/-- The format that stands for one without any text. -/
def plainFormat : String := "%(message)s"

/-- A star, or digits of any script; both may be missing. -/
def dropCount : List Char → List Char
  | '*' :: rest => rest
  | text => text.dropWhile Text.isDecimalDigit

/-- Drops a precision; a point has to have a star or digits behind it. -/
def dropPrecision? : List Char → Option (List Char)
  | '.' :: '*' :: rest => some rest
  | '.' :: c :: rest =>
      if Text.isDecimalDigit c then some (rest.dropWhile Text.isDecimalDigit) else none
  | ['.'] => none
  | text => some text

/-- A letter for a way of writing, in either case; so are the letters that turn into
one of these when their case is changed. -/
def endsField (c : Char) : Bool :=
  "diouxefgcrsa%".toList.contains c.toLower || ['ı', 'İ', 'ſ'].contains c

/-- A field starts here: a word in parentheses, flags, a width, a precision and a letter. -/
def startsField : List Char → Bool
  | '%' :: '(' :: rest =>
      match rest.span Text.isWordChar with
      | (_ :: _, ')' :: rest) =>
          match dropPrecision? (dropCount (rest.dropWhile Field.isFlag)) with
          | some (c :: _) => endsField c
          | _ => false
      | _ => false
  | _ => false

def hasField : List Char → Bool
  | [] => false
  | c :: rest => startsField (c :: rest) || hasField rest

/-- A format has at least one field. -/
def isFormat (format : String) : Bool := hasField format.toList

/-- What a field is replaced by, if the record has what it asks for. -/
def fillField? (record : Record) (f : Field) : Option (List Char) :=
  f.key.bind fun key => (record.datum? (String.ofList key)).bind f.write?

/-- Fills the fields of a format; two percent signs in a row stand for one. -/
def fill? (record : Record) : Nat → List Char → Option (List Char)
  | 0, _ => none
  | _, [] => some []
  | fuel + 1, '%' :: '%' :: rest => (fill? record fuel rest).map ('%' :: ·)
  | fuel + 1, '%' :: rest =>
      match Field.take? rest with
      | none => none
      | some (f, after) =>
          match fillField? record f, fill? record fuel after with
          | some text, some more => some (text ++ more)
          | _, _ => none
  | fuel + 1, c :: rest => (fill? record fuel rest).map (c :: ·)

/-- The line of a record, if the format can be filled. -/
def render? (format : String) (record : Record) : Option String :=
  (fill? record (format.length + 1) format.toList).map String.ofList

end NinjaFile.Logging
