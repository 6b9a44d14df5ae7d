import NinjaFile.Number.Whole
import NinjaFile.Ownership
import NinjaFile.Text.Quoted
import NinjaFile.Text.Utf8

/-!
# Faults

Everything that can go wrong while a document is made, by cause.
-/

namespace NinjaFile

/-- What the file system has against a path. -/
inductive PathFault where
  | missing
  | directory
  | notDirectory
  | tooLong
  /-- A character that no path can have. -/
  | nullCharacter
deriving DecidableEq, Repr

namespace PathFault

/-- The number and the text of the error that the file system reports. -/
def report? : PathFault → Option (Nat × String)
  | .missing => some (2, "No such file or directory")
  | .notDirectory => some (20, "Not a directory")
  | .directory => some (21, "Is a directory")
  | .tooLong => some (36, "File name too long")
  | .nullCharacter => none

def message (fault : PathFault) (path : String) : String :=
  match fault.report? with
  | some (code, text) => "[Errno " ++ toString code ++ "] " ++ text ++ ": " ++ Text.quoted path
  | none => "embedded null byte"

end PathFault

/-- What is wrong with a declaration that names something else. -/
inductive ReferenceFault where
  | undeclaredPool (rule pool : String)
  | undeclaredRule (rule : String)
  /-- A declaration of a type that has no meaning. -/
  | unsupported (typeName : String)
deriving DecidableEq, Repr

namespace ReferenceFault

def text : ReferenceFault → String
  | .undeclaredPool rule pool => "Rule '" ++ rule ++ "' uses undeclared pool '" ++ pool ++ "'"
  | .undeclaredRule rule => "Build uses undeclared rule '" ++ rule ++ "'"
  | .unsupported typeName => "Unsupported statement " ++ typeName

/-- The message about a declaration at some place, if the place is known. -/
def compose (text : String) : Option Int → String
  | none => text
  | some position => text ++ " at statement " ++ toString position

end ReferenceFault

inductive Fault where
  /-- A value of this type has no text. -/
  | unconvertible (typeName : String)
  | notIterable (typeName : String)
  | undecodable (fault : Text.Utf8.Fault)
  | borrow (fault : BorrowFault)
  /-- A handle points to a statement of another kind. -/
  | wrongKind (expected found : String) (index : Whole)
  /-- An index beyond the items of something. -/
  | outOfRange (holder : String)
  /-- An index that no sequence could ever have. -/
  | hugeIndex
  | noKey (shown : String)
  | noAttribute (typeName member : String)
  | readOnly (property typeName : String)
  | frozen (field : String)
  | fixedName (member : String)
  /-- A caller's own failure, passed on. -/
  | raised (text : String)
  | unknownKind (shown : String)
  | notImplemented
  | file (fault : PathFault) (path : String)
  | reference (fault : ReferenceFault) (position : Nat)
  /-- An argument of a type that an operation has no use for. -/
  | unsuitable (message : String)
  | unhashable (typeName : String)
  /-- Two values of types that have no common order. -/
  | incomparable (relation left right : String)
  | notCallable (typeName : String)
  /-- A lazy source is asked for items while it runs its last steps. -/
  | sourceBusy
  /-- A guard that is waited for is never left. -/
  | stuck
  /-- A value that is nested too deep, or that holds itself. -/
  | tooDeep
  /-- Something other than a text in a line of words. -/
  | notText (position : Nat) (typeName : String)
deriving DecidableEq, Repr

namespace Fault

def message : Fault → String
  | .unconvertible typeName => "Cannot convert " ++ typeName ++ " to a ninja argument"
  | .notIterable typeName => "'" ++ typeName ++ "' object is not iterable"
  | .undecodable fault => fault.message
  | .borrow fault => fault.message
  | .wrongKind expected found index =>
      "Expected " ++ expected ++ " statement at index " ++ index.toText ++ ", found " ++ found
  | .outOfRange holder => holder ++ "index out of range"
  | .hugeIndex => "cannot fit 'int' into an index-sized integer"
  | .noKey shown => shown
  | .noAttribute typeName member =>
      "'" ++ typeName ++ "' object has no attribute '" ++ member ++ "'"
  | .readOnly property typeName =>
      "property '" ++ property ++ "' of '" ++ typeName ++ "' object has no setter"
  | .frozen field => "cannot assign to field " ++ Text.quoted field
  | .fixedName member => "<enum 'Enum'> cannot set attribute '" ++ member ++ "'"
  | .raised text => text
  | .unknownKind shown => "Unknown statement kind: " ++ shown
  | .notImplemented => ""
  | .file fault path => fault.message path
  | .reference fault position => ReferenceFault.compose fault.text (some position)
  | .unsuitable message => message
  | .unhashable typeName => "unhashable type: '" ++ typeName ++ "'"
  | .incomparable relation left right =>
      "'" ++ relation ++ "' not supported between instances of '" ++ left ++ "' and '" ++
        right ++ "'"
  | .notCallable typeName => "'" ++ typeName ++ "' object is not callable"
  | .stuck => "no thread can go on"
  | .tooDeep => "maximum recursion depth exceeded"
  | .sourceBusy => "generator already executing"
  | .notText position typeName =>
      "sequence item " ++ toString position ++ ": expected str instance, " ++ typeName ++ " found"

end Fault

end NinjaFile
