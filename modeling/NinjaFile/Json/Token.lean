import NinjaFile.Number.Double

/-!
# JSON tokens

A text is cut into tokens by an automaton that takes one character at a time.
White space separates tokens and leaves no trace.  Inside a string nothing below a
space may stand as it is, and an escaped surrogate has to be one of a pair.
Besides the numbers of JSON, the words `NaN`, `Infinity` and `-Infinity` are taken
for numbers.
-/

namespace NinjaFile

inductive Json where
  | null
  | bool (b : Bool)
  | int (n : Int)
  | float (x : Double)
  | text (s : String)
  | list (items : List Json)
  | object (entries : List (String × Json))
deriving Repr, Inhabited

namespace Json

inductive Token where
  | openList
  | closeList
  | openObject
  | closeObject
  | comma
  | colon
  | text (s : String)
  /-- Any value that is neither a text nor a container. -/
  | scalar (v : Json)
deriving Repr

/-! ## Numbers -/

/-- How far a number has been read. -/
inductive Phase where
  | minus
  | zero
  | whole
  | point
  | places
  | mark
  | sign
  | power
deriving DecidableEq, Repr

namespace Phase

def next? (phase : Phase) (c : Char) : Option Phase :=
  let digit := Double.isDigit c
  match phase with
  | .minus => if c = '0' then some .zero else if digit then some .whole else none
  | .zero => if c = '.' then some .point else if c = 'e' ∨ c = 'E' then some .mark else none
  | .whole =>
      if digit then some .whole
      else if c = '.' then some .point
      else if c = 'e' ∨ c = 'E' then some .mark
      else none
  | .point => if digit then some .places else none
  | .places =>
      if digit then some .places else if c = 'e' ∨ c = 'E' then some .mark else none
  | .mark =>
      if digit then some .power else if c = '+' ∨ c = '-' then some .sign else none
  | .sign | .power => if digit then some .power else none

/-- A number may end here. -/
def isComplete : Phase → Bool
  | .zero | .whole | .places | .power => true
  | _ => false

/-- Only digits have been read. -/
def isWhole : Phase → Bool
  | .zero | .whole => true
  | _ => false

end Phase

/-- The most characters that the whole part of a number may have, its sign included. -/
abbrev DigitLimit := Option Nat

def DigitLimit.admits (limit : DigitLimit) (text : List Char) : Bool :=
  match limit with
  | none => true
  | some n => (text.takeWhile fun c => c = '-' ∨ Double.isDigit c).length ≤ n

/-- The number written by some characters, unless it is too long. -/
def number? (limit : DigitLimit) (phase : Phase) (text : List Char) : Option Json :=
  let (negative, digits) := Double.takeSign text
  if !limit.admits text then none
  else if phase.isWhole then
    let n := Double.digitsValue digits
    some (.int (if negative then -(n : Int) else n))
  else some (.float ((Double.ofDigits? negative digits).getD .nan))

/-! ## The automaton -/

/-- What the automaton is in the middle of; characters read are kept in reverse. -/
inductive Scan where
  | between
  /-- The rest of a word that stands for a value. -/
  | word (left : List Char) (v : Json)
  | number (phase : Phase) (read : List Char)
  | text (read : List Char)
  | escape (read : List Char)
  /-- The digits of an escaped code, after the first half of a pair if there is one. -/
  | code (high : Option Nat) (left : Nat) (value : Nat) (read : List Char)
  /-- The second half of a pair has to follow: first its backslash, then its letter. -/
  | pairSlash (high : Nat) (read : List Char)
  | pairLetter (high : Nat) (read : List Char)
deriving Repr

def isBlank (c : Char) : Bool := c = ' ' ∨ c = '\t' ∨ c = '\n' ∨ c = '\r'

/-- The first character of a token. -/
def start (c : Char) : Option (Scan × List Token) :=
  if isBlank c then some (.between, [])
  else
    match c with
    | '[' => some (.between, [.openList])
    | ']' => some (.between, [.closeList])
    | '{' => some (.between, [.openObject])
    | '}' => some (.between, [.closeObject])
    | ',' => some (.between, [.comma])
    | ':' => some (.between, [.colon])
    | '"' => some (.text [], [])
    | '-' => some (.number .minus ['-'], [])
    | 't' => some (.word ['r', 'u', 'e'] (.bool true), [])
    | 'f' => some (.word ['a', 'l', 's', 'e'] (.bool false), [])
    | 'n' => some (.word ['u', 'l', 'l'] .null, [])
    | 'N' => some (.word ['a', 'N'] (.float .nan), [])
    | 'I' => some (.word "nfinity".toList (.float (.infinite false)), [])
    | c => (Phase.minus.next? c).map fun phase => (.number phase [c], [])

def hexValue? (c : Char) : Option Nat :=
  if '0' ≤ c ∧ c ≤ '9' then some (c.toNat - 48)
  else if 'a' ≤ c ∧ c ≤ 'f' then some (c.toNat - 87)
  else if 'A' ≤ c ∧ c ≤ 'F' then some (c.toNat - 55)
  else none

/-- What a letter behind a backslash stands for. -/
def escaped? (c : Char) : Option Char :=
  match c with
  | '"' => some '"'
  | '\\' => some '\\'
  | '/' => some '/'
  | 'b' => some '\x08'
  | 'f' => some '\x0c'
  | 'n' => some '\n'
  | 'r' => some '\r'
  | 't' => some '\t'
  | _ => none

def isHighHalf (code : Nat) : Bool := 0xD800 ≤ code && code < 0xDC00
def isLowHalf (code : Nat) : Bool := 0xDC00 ≤ code && code < 0xE000

/-- What follows the last digit of an escaped code. -/
def endCode (high : Option Nat) (code : Nat) (read : List Char) : Option Scan :=
  match high with
  | none =>
      if isHighHalf code then some (.pairSlash code read)
      else if isLowHalf code then none
      else some (.text (Char.ofNat code :: read))
  | some high =>
      if isLowHalf code then
        some (.text (Char.ofNat (0x10000 + (high - 0xD800) * 0x400 + (code - 0xDC00)) :: read))
      else none

/-- Takes one character and gives the tokens it completes. -/
def step (limit : DigitLimit) (scan : Scan) (c : Char) : Option (Scan × List Token) :=
  match scan with
  | .between => start c
  | .word [] _ => none
  | .word [last] v => if c = last then some (.between, [.scalar v]) else none
  | .word (next :: left) v => if c = next then some (.word left v, []) else none
  | .number phase read =>
      match phase.next? c with
      | some phase => some (.number phase (c :: read), [])
      | none =>
          if phase.isComplete then
            match number? limit phase read.reverse with
            | none => none
            | some v => (start c).map fun (scan, tokens) => (scan, .scalar v :: tokens)
          else if phase = .minus ∧ c = 'I' then
            some (.word "nfinity".toList (.float (.infinite true)), [])
          else none
  | .text read =>
      if c = '"' then some (.between, [.text (String.ofList read.reverse)])
      else if c = '\\' then some (.escape read, [])
      else if c.toNat < 0x20 then none
      else some (.text (c :: read), [])
  | .escape read =>
      if c = 'u' then some (.code none 4 0 read, [])
      else (escaped? c).map fun d => (.text (d :: read), [])
  | .code high left value read =>
      match hexValue? c with
      | none => none
      | some digit =>
          let value := value * 16 + digit
          if left ≤ 1 then (endCode high value read).map fun scan => (scan, [])
          else some (.code high (left - 1) value read, [])
  | .pairSlash high read => if c = '\\' then some (.pairLetter high read, []) else none
  | .pairLetter high read => if c = 'u' then some (.code (some high) 4 0 read, []) else none

/-- What is complete at the end of a text. -/
def finish (limit : DigitLimit) : Scan → Option (List Token)
  | .between => some []
  | .number phase read =>
      if phase.isComplete then
        (number? limit phase read.reverse).map fun v => [.scalar v]
      else none
  | _ => none

def scanFrom (limit : DigitLimit) (scan : Scan) : List Char → Option (List Token)
  | [] => finish limit scan
  | c :: rest =>
      match step limit scan c with
      | none => none
      | some (scan, tokens) => (scanFrom limit scan rest).map (tokens ++ ·)

def tokens? (limit : DigitLimit) (text : List Char) : Option (List Token) :=
  scanFrom limit .between text

end Json

end NinjaFile
