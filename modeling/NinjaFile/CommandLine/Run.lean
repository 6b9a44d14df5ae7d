import NinjaFile.CommandLine.Options
import NinjaFile.Manifest.Builder
import NinjaFile.Manifest.Loading
import NinjaFile.Text.Lines

/-!
# Running a command line

The manifest is loaded and built, and the text of the document is printed or
written to a file.  Nothing is written before all of that has gone well.
-/

namespace NinjaFile.CommandLine

/-- Why a run gives up after its command line was understood. -/
inductive Failure where
  | load (fault : Manifest.LoadFault)
  /-- The manifest is no manifest. -/
  | invalid (manifest : Text.Path) (issues : List Manifest.Issue)
  /-- The manifest refers to something it does not declare. -/
  | unbuildable (manifest : Text.Path) (fault : ReferenceFault) (position : Nat)
  | other (fault : Fault)
deriving DecidableEq, Repr

namespace Failure

def message : Failure → String
  | .load (.absent path) => "Manifest does not exist: " ++ path.toText
  | .load (.unreachable fault path) => fault.message path.toText
  | .load (.undecodable fault) => fault.message
  | .load (.invalid _) => ""
  | .invalid manifest _ => "Invalid manifest " ++ manifest.toText
  | .unbuildable manifest _ _ => "Failed to build " ++ manifest.toText
  | .other fault => fault.message

end Failure

inductive Ending where
  | success
  | exit (e : Exit)
  | failure (f : Failure)
deriving DecidableEq, Repr

structure Result where
  ending : Ending
  stdout : String
  stderr : List String
  files : FileTree
deriving DecidableEq, Repr

/-- The settings of the document a command line asks for. -/
def settings (options : Options) : List (Value × Value) :=
  [(.text "thread_safe", .bool options.threadSafe),
    (.text "enable_logger", .bool options.verbose),
    (.text "log_level", .int (if options.verbose then 10 else 30))]

/-- What is said about a file that was written: its path, seen from the current
directory if it lies below. -/
def notice (files : FileTree) (path : Text.Path) : String :=
  let shown :=
    match Text.Path.below? files.currentPath path with
    | some path => path
    | none => path
  "Wrote " ++ shown.toText ++ "\n"

/-- Where the text of a document goes. -/
inductive Target where
  | stdout
  | file (path : String)
deriving DecidableEq, Repr

def target (options : Options) : Except Fault Target :=
  if options.stdout then .ok .stdout
  else
    match options.output with
    | some path => .ok (.file path)
    | none => .error (.unsuitable "expected str, bytes or os.PathLike object, not list")

/-- The output of a document that has been built. -/
def emit (target : Target) (d : DocumentId) : Action String := do
  match target with
  | .stdout => d.render
  | .file path =>
      let path ← d.write (.path path)
      return notice (← Action.read fun s => s.files) path

/-- Builds a manifest and puts out its text. -/
def produce (options : Options) (target : Target) (m : Manifest) (path : Text.Path) :
    Action (Except Failure String) := do
  let (_, outcome) ← (Builder.ofManifest m (settings options)).build
  match outcome with
  | .error (.reference fault position) => return .error (.unbuildable path fault position)
  | .error fault => return .error (.other fault)
  | .ok d =>
      match ← (emit target d).attempt with
      | .error fault => return .error (.other fault)
      | .ok text => return .ok text

def runWith (options : Options) (target : Target) (files : FileTree) : Result :=
  let path := Text.Path.ofString options.manifest
  match Manifest.load files path with
  | .error (.invalid issues) => ⟨.failure (.invalid path issues), "", [], files⟩
  | .error fault => ⟨.failure (.load fault), "", [], files⟩
  | .ok m =>
      let (outcome, s) := (produce options target m path).alone (.ofFiles files)
      match outcome with
      | .ok (.ok text) => ⟨.success, text, s.logging.lines, s.files⟩
      | .ok (.error failure) => ⟨.failure failure, "", s.logging.lines, s.files⟩
      | .error fault => ⟨.failure (.other fault), "", s.logging.lines, s.files⟩

/-- Runs a command line on a file tree. -/
def run (argv : List String) (files : FileTree) : Result :=
  match parse argv with
  | .error exit => ⟨.exit exit, exit.stdout, Text.lines exit.stderr, files⟩
  | .ok options =>
      match target options with
      | .error fault => ⟨.failure (.other fault), "", [], files⟩
      | .ok target => runWith options target files

end NinjaFile.CommandLine
