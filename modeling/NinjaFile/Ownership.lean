/-!
# Ownership

A list is owned by a single thread or shared by several.  Single ownership only
notices overlapping use; shared ownership makes readers and writers wait for
each other.
-/

namespace NinjaFile

inductive Ownership where
  | single
  | shared
deriving DecidableEq, Repr

namespace Ownership

def name : Ownership → String
  | .single => "single"
  | .shared => "shared"

def label : Ownership → String
  | .single => "SINGLE"
  | .shared => "SHARED"

end Ownership

/-- What a thread wants of a list. -/
inductive Mode where
  | read
  | write
deriving DecidableEq, Repr

abbrev ThreadId := Nat

/-- Why a list cannot be used now. -/
inductive BorrowFault where
  /-- A single owner writes inside a write. -/
  | writeInWrite
  /-- A single owner reads inside a write. -/
  | readInWrite
  /-- The thread already holds the shared list. -/
  | heldByThread (mode : Mode)
  /-- Another thread writes, and this list does not let writers wait for one. -/
  | writtenElsewhere
deriving DecidableEq, Repr

namespace BorrowFault

def ownership : BorrowFault → Ownership
  | .writeInWrite | .readInWrite => .single
  | .heldByThread _ | .writtenElsewhere => .shared

def text : BorrowFault → String
  | .writeInWrite => "list is already borrowed for writing"
  | .readInWrite => "list is borrowed for writing, cannot read"
  | .heldByThread .write => "list is already held by this thread, cannot lock for writing"
  | .heldByThread .read => "list is already held by this thread, cannot lock for reading"
  | .writtenElsewhere => "list is being written by another thread, cannot lock for writing"

/-- The message of a refused use, with the ownership it happened under. -/
def compose (text mode : String) : String :=
  "Error: " ++ text ++ " (" ++ mode ++ " ownership)"

def message (fault : BorrowFault) : String :=
  compose fault.text fault.ownership.name

end BorrowFault

end NinjaFile
