import NinjaFile.Text.Digit
import NinjaFile.Text.Quoted

/-!
# Options

A command line is a list of words.  Words that start with a dash are options,
unless they are a lone dash, a negative number, or hold a space and name nothing;
behind `--` there are only plain words.  Long options may be shortened as long as
one name fits, short ones may be written together, and a value may be attached or
follow as the next plain word.
-/

namespace NinjaFile.CommandLine

structure Options where
  manifest : String
  /-- A value that is written `--` is taken for the end of the options and lost. -/
  output : Option String
  stdout : Bool
  threadSafe : Bool
  verbose : Bool
deriving DecidableEq, Repr

inductive Flag where
  | help
  | output
  | stdout
  | threadSafe (on : Bool)
  | verbose
deriving DecidableEq, Repr

namespace Flag

/-- All spellings, in the order in which they are declared. -/
def spellings : List (String × Flag) :=
  [("-h", .help), ("--help", .help), ("-o", .output), ("--output", .output),
    ("--stdout", .stdout), ("--thread-safe", .threadSafe true),
    ("--no-thread-safe", .threadSafe false), ("-v", .verbose), ("--verbose", .verbose)]

def ofSpelling? (word : String) : Option Flag := spellings.lookup word

def takesValue : Flag → Bool
  | .output => true
  | _ => false

/-- The name of an option in messages. -/
def title : Flag → String
  | .help => "-h/--help"
  | .output => "-o/--output"
  | .stdout => "--stdout"
  | .threadSafe _ => "--thread-safe/--no-thread-safe"
  | .verbose => "-v/--verbose"

end Flag

inductive Misuse where
  | ambiguous (word : String) (spellings : List String)
  | valueMissing (flag : Flag)
  | valueIgnored (flag : Flag) (value : String)
  | manifestMissing
  | unrecognized (words : List String)
deriving DecidableEq, Repr

namespace Misuse

def message : Misuse → String
  | .ambiguous word spellings =>
      "ambiguous option: " ++ word ++ " could match " ++ ", ".intercalate spellings
  | .valueMissing flag => "argument " ++ flag.title ++ ": expected one argument"
  | .valueIgnored flag value =>
      "argument " ++ flag.title ++ ": ignored explicit argument " ++ Text.quoted value
  | .manifestMissing => "the following arguments are required: manifest"
  | .unrecognized words => "unrecognized arguments: " ++ " ".intercalate words

end Misuse

/-- Why there are no options to go on with. -/
inductive Exit where
  | help
  | misuse (misuse : Misuse)
deriving DecidableEq, Repr

/-! ## Words -/

/-- An option as written: whether it has a single dash, what it means if anything,
and the value attached to it. -/
inductive Word where
  | plain (text : String)
  | separator
  | option (short : Bool) (flag : Flag) (value : Option String)
  | unknown (text : String)
deriving DecidableEq, Repr

/-- Digits, or digits with a point in front of the last of them; a newline behind
them does not count. -/
def isNumeral (text : List Char) : Bool :=
  let text := if text.getLast? = some '\n' then text.dropLast else text
  match text.span Text.isDecimalDigit with
  | (digits, []) => !digits.isEmpty
  | (_, '.' :: places) => !places.isEmpty && places.all Text.isDecimalDigit
  | _ => false

/-- A text up to the first equals sign, and what follows it. -/
def splitValue (word : String) : String × Option String :=
  match word.toList.span (fun c => c ≠ '=') with
  | (name, _ :: value) => (String.ofList name, some (String.ofList value))
  | (name, []) => (String.ofList name, none)

/-- The options a word may be short for. -/
def candidates (word : String) : List (String × Word) :=
  match word.toList with
  | '-' :: '-' :: _ =>
      let (name, value) := splitValue word
      (Flag.spellings.filter fun s => name.toList.isPrefixOf s.1.toList).map fun s =>
        (s.1, .option false s.2 value)
  | '-' :: c :: rest =>
      Flag.spellings.filterMap fun s =>
        if s.1.toList = ['-', c] then some (s.1, .option true s.2 (some (String.ofList rest)))
        else if word.toList.isPrefixOf s.1.toList then some (s.1, .option false s.2 none)
        else none
  | _ => []

def isShort (spelling : String) : Bool := !("--".toList.isPrefixOf spelling.toList)

/-- What a word in front of any `--` is. -/
def classify (word : String) : Except Exit Word :=
  match word.toList with
  | '-' :: c :: rest =>
      match Flag.ofSpelling? word with
      | some flag => .ok (.option (isShort word) flag none)
      | none =>
          let (name, value) := splitValue word
          match Flag.ofSpelling? name, value with
          | some flag, some value => .ok (.option (isShort name) flag (some value))
          | _, _ =>
              match candidates word with
              | [(_, w)] => .ok w
              | [] =>
                  if isNumeral (c :: rest) || word.contains ' ' then .ok (.plain word)
                  else .ok (.unknown word)
              | many => .error (.misuse (.ambiguous word (many.map (·.1))))
  | _ => .ok (.plain word)

def classifyAll : List String → Except Exit (List Word)
  | [] => .ok []
  | word :: rest =>
      if word = "--" then .ok (.separator :: rest.map .plain)
      else do
        let first ← classify word
        return first :: (← classifyAll rest)

/-! ## Reading -/

/-- What has been read so far: the values, the manifest if there was one, and the
words there is no use for. -/
structure Progress where
  options : Options
  hasManifest : Bool
  extras : List String
deriving DecidableEq, Repr

def Progress.initial : Progress where
  options := ⟨"", some "build.ninja", false, false, false⟩
  hasManifest := false
  extras := []

namespace Progress

def setManifest (p : Progress) (text : String) : Progress :=
  { p with options := { p.options with manifest := text }, hasManifest := true }

def addExtra (p : Progress) (text : String) : Progress :=
  { p with extras := p.extras ++ [text] }

/-- The effect of an option, with its value if it takes one. -/
def apply (p : Progress) : Flag × String → Except Exit Progress
  | (.help, _) => .error .help
  | (.output, value) =>
      let output := if value = "--" then none else some value
      .ok { p with options := { p.options with output := output } }
  | (.stdout, _) => .ok { p with options := { p.options with stdout := true } }
  | (.threadSafe on, _) => .ok { p with options := { p.options with threadSafe := on } }
  | (.verbose, _) => .ok { p with options := { p.options with verbose := true } }

def applyAll (p : Progress) : List (Flag × String) → Except Exit Progress
  | [] => .ok p
  | first :: rest => do (← p.apply first).applyAll rest

end Progress

/-- An option whose value, if it takes one, is the next word. -/
def detached (flag : Flag) (rest : List Word) : Except Exit ((Flag × String) × List Word) :=
  if flag.takesValue then
    match rest with
    | .plain text :: rest => .ok ((flag, text), rest)
    | _ => .error (.misuse (.valueMissing flag))
  else .ok ((flag, ""), rest)

/-- The options in one word, from one that has `value` attached.  Behind an option
with a single dash that takes no value the characters are further options. -/
def attached (short : Bool) (flag : Flag) (rest : List Word) :
    List Char → Except Exit (List (Flag × String) × List Word)
  | [] =>
      if flag.takesValue then .ok ([(flag, "")], rest)
      else .error (.misuse (.valueIgnored flag ""))
  | c :: more =>
      let value := String.ofList (c :: more)
      if flag.takesValue then .ok ([(flag, value)], rest)
      else if !short then .error (.misuse (.valueIgnored flag value))
      else
        match Flag.ofSpelling? (String.ofList ['-', c]) with
        | none => .error (.misuse (.valueIgnored flag value))
        | some next =>
            if more = [] then do
              let (last, rest) ← detached next rest
              return ([(flag, ""), last], rest)
            else do
              let (others, rest) ← attached true next rest more
              return ((flag, "") :: others, rest)

/-- Reads the words one after the other; `fuel` is at least their number. -/
def readWords : Nat → Progress → List Word → Except Exit Progress
  | 0, p, _ => .ok p
  | _, p, [] => .ok p
  | fuel + 1, p, word :: rest =>
      match word with
      | .plain text =>
          if p.hasManifest then readWords fuel (p.addExtra text) rest
          else
            match rest with
            | .separator :: rest => readWords fuel (p.setManifest text) rest
            | rest => readWords fuel (p.setManifest text) rest
      | .separator =>
          match p.hasManifest, rest with
          | false, .plain text :: rest => readWords fuel (p.setManifest text) rest
          | _, rest => readWords fuel (p.addExtra "--") rest
      | .unknown text => readWords fuel (p.addExtra text) rest
      | .option _ flag none => do
          let (first, rest) ← detached flag rest
          readWords fuel (← p.apply first) rest
      | .option short flag (some value) => do
          let (all, rest) ← attached short flag rest value.toList
          readWords fuel (← p.applyAll all) rest

/-- The options of a command line. -/
def parse (argv : List String) : Except Exit Options := do
  let words ← classifyAll argv
  let p ← readWords words.length .initial words
  if !p.hasManifest then .error (.misuse .manifestMissing)
  else if p.extras ≠ [] then .error (.misuse (.unrecognized p.extras))
  else return p.options

/-! ## Texts -/

def usage : String :=
  "usage: ninja-writer [-h] [-o OUTPUT] [--stdout]\n" ++
  "                    [--thread-safe | --no-thread-safe] [-v]\n" ++
  "                    manifest\n"

def helpText : String :=
  usage ++ "\n" ++
  "Write a ninja build file from a JSON manifest of rules, build edges and pools.\n" ++
  "\n" ++
  "positional arguments:\n" ++
  "  manifest              Path to the JSON manifest.\n" ++
  "\n" ++
  "options:\n" ++
  "  -h, --help            show this help message and exit\n" ++
  "  -o OUTPUT, --output OUTPUT\n" ++
  "                        Where to write the ninja file (defaults to\n" ++
  "                        build.ninja).\n" ++
  "  --stdout              Print the ninja file instead of writing it.\n" ++
  "  --thread-safe, --no-thread-safe\n" ++
  "                        Build the document with shared, lock-guarded ownership\n" ++
  "                        (default: disabled).\n" ++
  "  -v, --verbose         Log every statement as it is added.\n"

namespace Exit

def code : Exit → Nat
  | .help => 0
  | _ => 2

def stdout : Exit → String
  | .help => helpText
  | _ => ""

def stderr : Exit → String
  | .misuse m => usage ++ "ninja-writer: error: " ++ m.message ++ "\n"
  | _ => ""

end Exit

end NinjaFile.CommandLine
