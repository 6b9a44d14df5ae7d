/-!
# Escaping

A build file gives `$` a special meaning, and a newline ends the line it stands
on.  In a list of paths a space ends a path, and in the outputs of a `build`
line a colon ends the list.  A `$` in front takes the special meaning away.

Most texts hold nothing special.  `changed?` leaves those alone and copies only
from the first special character on; `escape` is the text either way.
-/

namespace NinjaFile.Text.Escape

/-- Where a text is put: whether spaces and colons mean something there. -/
structure Context where
  space : Bool
  colon : Bool
deriving DecidableEq, Repr

namespace Context

/-- The value of a variable, or any other rest of a line. -/
def value : Context := ⟨false, false⟩

/-- A list of paths separated by spaces. -/
def path : Context := ⟨true, false⟩

/-- The outputs of a `build` line. -/
def output : Context := ⟨true, true⟩

end Context

def isSpecial (k : Context) (c : Char) : Bool :=
  c == '$' || c == '\n' || (k.space && c == ' ') || (k.colon && c == ':')

def encodeChar (k : Context) (c : Char) : List Char :=
  if isSpecial k c then ['$', c] else [c]

def encode (k : Context) (text : List Char) : List Char :=
  text.flatMap (encodeChar k)

/-- Adds a character to a copy. -/
def put (k : Context) (c : Char) (copy : Array Char) : Array Char :=
  if isSpecial k c then (copy.push '$').push c else copy.push c

/-- Goes through the characters that stand at place `i` of a text and behind it.  The first
special one starts a copy with all that is in front of it. -/
def scan (k : Context) (text : List Char) : Nat → Option (Array Char) → List Char → Option (Array Char)
  | _, copy, [] => copy
  | i, none, c :: rest =>
      if isSpecial k c then scan k text (i + 1) (some (put k c (text.take i).toArray)) rest
      else scan k text (i + 1) none rest
  | i, some copy, c :: rest => scan k text (i + 1) (some (put k c copy)) rest

/-- The escaped text, or `none` when the text holds nothing special. -/
def changed? (k : Context) (text : List Char) : Option (List Char) :=
  (scan k text 0 none text).map Array.toList

def escape (k : Context) (text : String) : String :=
  match changed? k text.toList with
  | none => text
  | some escaped => String.ofList escaped

/-- Nothing in the text needs escaping. -/
def isPlain (k : Context) (text : String) : Bool :=
  (changed? k text.toList).isNone

/-! ## The written form -/

@[simp] theorem encode_nil (k : Context) : encode k [] = [] := rfl

@[simp] theorem encode_cons (k : Context) (c : Char) (text : List Char) :
    encode k (c :: text) = encodeChar k c ++ encode k text := rfl

@[simp] theorem encode_append (k : Context) (a b : List Char) :
    encode k (a ++ b) = encode k a ++ encode k b := by
  simp [encode]

theorem encodeChar_special {k : Context} {c : Char} (h : isSpecial k c = true) :
    encodeChar k c = ['$', c] := by
  simp [encodeChar, h]

theorem encodeChar_plain {k : Context} {c : Char} (h : isSpecial k c = false) :
    encodeChar k c = [c] := by
  simp [encodeChar, h]

end NinjaFile.Text.Escape
