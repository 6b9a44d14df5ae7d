import NinjaFile.FileTree
import NinjaFile.Keyed
import NinjaFile.Program
import NinjaFile.Table

/-!
# The store

Everything that documents, statements and lists share: each thing lies in a table
and is referred to by its number, so that several references to one thing see the
same changes.
-/

namespace NinjaFile

/-- A list that only grows, behind its guard. -/
structure GuardedList where
  ownership : Ownership
  blocking : Bool
  guard : Guard
  items : List Value

instance : Inhabited GuardedList := ⟨⟨.single, false, .cooperative false, []⟩⟩

namespace GuardedList

def make (ownership : Ownership) (blocking : Bool) (items : List Value) : GuardedList :=
  ⟨ownership, blocking, .ofOwnership ownership blocking, items⟩

end GuardedList

structure RuleRecord where
  name : String
  bindings : ListId
deriving DecidableEq, Repr

instance : Inhabited RuleRecord := ⟨⟨"", ⟨0⟩⟩⟩

structure PoolRecord where
  name : String
  bindings : ListId
  builtIn : Bool
deriving DecidableEq, Repr

instance : Inhabited PoolRecord := ⟨⟨"", ⟨0⟩, false⟩⟩

structure BuildRecord where
  ruleName : String
  paths : Slots ListId
  bindings : ListId
deriving DecidableEq, Repr

instance : Inhabited BuildRecord := ⟨⟨"", .ofFn fun _ => ⟨0⟩, ⟨0⟩⟩⟩

structure DocumentRecord where
  settings : List (String × Value)
  arena : Arena
  phony : RuleId
  console : PoolId

instance : Inhabited DocumentRecord := ⟨⟨[], ⟨.single, ⟨0⟩, none⟩, ⟨0⟩, ⟨0⟩⟩⟩

inductive SourceState where
  | ready
  /-- Its items are gone and its last steps are being run. -/
  | closing
  | finished
deriving DecidableEq, Repr

/-- A lazy source gives its items, then has its last steps run by the
environment, and then may fail. -/
structure Source where
  items : List Value
  state : SourceState
  raises : Option String

instance : Inhabited Source := ⟨⟨[], .finished, none⟩⟩

structure Store where
  lists : Table GuardedList
  rules : Table RuleRecord
  builds : Table BuildRecord
  pools : Table PoolRecord
  documents : Table DocumentRecord
  guards : Table Guard
  sources : Table Source
  files : FileTree
  logging : Logging
  /-- The next serial number. -/
  serial : Serial
  /-- What was assigned to a name of a thing; it hides what the thing was made with. -/
  assigned : List ((Identity × String) × Value)

namespace Store

def ofFiles (files : FileTree) : Store where
  lists := .empty
  rules := .empty
  builds := .empty
  pools := .empty
  documents := .empty
  guards := .empty
  sources := .empty
  files := files
  logging := .empty
  serial := 1
  assigned := []

instance : Inhabited Guard := ⟨.cooperative false⟩

def list (s : Store) (id : ListId) : GuardedList := s.lists.get id.index
def rule (s : Store) (id : RuleId) : RuleRecord := s.rules.get id.index
def build (s : Store) (id : BuildId) : BuildRecord := s.builds.get id.index
def pool (s : Store) (id : PoolId) : PoolRecord := s.pools.get id.index
def document (s : Store) (id : DocumentId) : DocumentRecord := s.documents.get id.index
def source (s : Store) (id : SourceId) : Source := s.sources.get id.index

def modifyList (s : Store) (id : ListId) (f : GuardedList → GuardedList) : Store :=
  { s with lists := s.lists.modify id.index f }

def modifyRule (s : Store) (id : RuleId) (f : RuleRecord → RuleRecord) : Store :=
  { s with rules := s.rules.modify id.index f }

def modifyBuild (s : Store) (id : BuildId) (f : BuildRecord → BuildRecord) : Store :=
  { s with builds := s.builds.modify id.index f }

def modifyPool (s : Store) (id : PoolId) (f : PoolRecord → PoolRecord) : Store :=
  { s with pools := s.pools.modify id.index f }

def modifySource (s : Store) (id : SourceId) (f : Source → Source) : Store :=
  { s with sources := s.sources.modify id.index f }

def guard (s : Store) : LockId → Guard
  | .list id => (s.list id).guard
  | .free id => s.guards.get id.index

def setGuard (s : Store) (lock : LockId) (guard : Guard) : Store :=
  match lock with
  | .list id => s.modifyList id fun l => { l with guard := guard }
  | .free id => { s with guards := s.guards.modify id.index fun _ => guard }

instance : Guarded Store := ⟨guard, setGuard⟩

/-! ## New entries -/

def insertList (s : Store) (l : GuardedList) : ListId × Store :=
  (⟨s.lists.size⟩, { s with lists := s.lists.insert l })

def insertRule (s : Store) (r : RuleRecord) : RuleId × Store :=
  (⟨s.rules.size⟩, { s with rules := s.rules.insert r })

def insertBuild (s : Store) (b : BuildRecord) : BuildId × Store :=
  (⟨s.builds.size⟩, { s with builds := s.builds.insert b })

def insertPool (s : Store) (p : PoolRecord) : PoolId × Store :=
  (⟨s.pools.size⟩, { s with pools := s.pools.insert p })

def insertDocument (s : Store) (d : DocumentRecord) : DocumentId × Store :=
  (⟨s.documents.size⟩, { s with documents := s.documents.insert d })

def insertGuard (s : Store) (g : Guard) : GuardId × Store :=
  (⟨s.guards.size⟩, { s with guards := s.guards.insert g })

def insertSource (s : Store) (source : Source) : SourceId × Store :=
  (⟨s.sources.size⟩, { s with sources := s.sources.insert source })

def nextSerial (s : Store) : Serial × Store := (s.serial, { s with serial := s.serial + 1 })

/-! ## Assignments -/

def assigned? (s : Store) (i : Identity) (name : String) : Option Value :=
  s.assigned.lookup (i, name)

def assign (s : Store) (i : Identity) (name : String) (v : Value) : Store :=
  { s with assigned := setKey (i, name) v s.assigned }

/-- What a thing comes with besides what it is made of. -/
def assignAll (s : Store) (i : Identity) (attributes : List (String × Value)) : Store :=
  attributes.foldl (fun s (name, v) => s.assign i name v) s

/-- What the thing was made with shows again. -/
def unassign (s : Store) (i : Identity) (name : String) : Store :=
  { s with assigned := dropKey (i, name) s.assigned }

theorem assigned?_assign (s : Store) (i j : Identity) (name other : String) (v : Value) :
    (s.assign i name v).assigned? j other =
      if (j, other) = (i, name) then some v else s.assigned? j other := by
  simp only [assigned?, assign]
  exact lookup_setKey (i, name) (j, other) v s.assigned

/-- A serial number for a thing with the given attributes. -/
def insertSerial (s : Store) (attributes : List (String × Value)) : Serial × Store :=
  let (n, s) := s.nextSerial
  (n, s.assignAll (.serial n) attributes)

end Store

/-- A program on the store that asks for sources to be closed. -/
abbrev Action := Program Store SourceId

namespace Action

/-- An atomic look at the store. -/
def read (f : Store → α) : Action α := .act id fun s => .pure (f s)

def assign (i : Identity) (name : String) (v : Value) : Action Unit :=
  .modify fun s => s.assign i name v

/-- Runs an action with no other thread about and no sources to close. -/
def alone (action : Action α) (s : Store) : Except Fault α × Store :=
  let (pause, s, ()) := action.run 0 (fun _ m => m) (s, ())
  match pause with
  | .done a => (.ok a, s)
  | .failed fault => (.error fault, s)
  | .waiting .. => (.error .stuck, s)

end Action

end NinjaFile
