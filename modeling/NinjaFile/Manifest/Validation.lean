import NinjaFile.Json.Reader
import NinjaFile.Manifest.Basic

/-!
# Validation

A JSON value is checked against the fields of a manifest.  All faults are found,
in the order in which fields are declared and items stand.  Texts must be texts;
truth values and depths are also taken in other forms that plainly mean one.
-/

namespace NinjaFile.Manifest

inductive Complaint where
  | notJson
  | notModel
  | notMapping
  | missing
  | notText
  | notList
  | notBool
  | unreadableBool
  | notInt
  | unreadableInt
  | hugeInt
  | fraction
  | infinite
  | negative
  | noTag
  | unknownTag
deriving DecidableEq, Repr

namespace Complaint

def name : Complaint → String
  | .notJson => "json_invalid"
  | .notModel => "model_type"
  | .notMapping => "dict_type"
  | .missing => "missing"
  | .notText => "string_type"
  | .notList => "list_type"
  | .notBool => "bool_type"
  | .unreadableBool => "bool_parsing"
  | .notInt => "int_type"
  | .unreadableInt => "int_parsing"
  | .hugeInt => "int_parsing_size"
  | .fraction => "int_from_float"
  | .infinite => "finite_number"
  | .negative => "greater_than_equal"
  | .noTag => "union_tag_not_found"
  | .unknownTag => "union_tag_invalid"

end Complaint

/-- A step from a value into a part of it. -/
inductive Step where
  | key (name : String)
  | index (i : Nat)
deriving DecidableEq, Repr

structure Issue where
  complaint : Complaint
  place : List Step
deriving DecidableEq, Repr

/-- A checked value, or all that is wrong with it. -/
abbrev Checked (α : Type) := Except (List Issue) α

namespace Checked

def bad (complaint : Complaint) : Checked α := .error [⟨complaint, []⟩]

/-- The same, seen from one step further out. -/
def under (step : Step) : Checked α → Checked α
  | .ok a => .ok a
  | .error issues => .error (issues.map fun i => { i with place := step :: i.place })

/-- Both checks are made, whatever the first one finds. -/
def both (f : α → β → γ) : Checked α → Checked β → Checked γ
  | .ok a, .ok b => .ok (f a b)
  | .ok _, .error issues => .error issues
  | .error issues, .ok _ => .error issues
  | .error issues, .error more => .error (issues ++ more)

/-- Gives a function one more argument. -/
def app (f : Checked (α → β)) (a : Checked α) : Checked β := both (fun f a => f a) f a

/-- All items of a list from index `i` on. -/
def listFrom (check : Json → Checked α) (i : Nat) : List Json → Checked (List α)
  | [] => .ok []
  | v :: rest => both List.cons ((check v).under (.index i)) (listFrom check (i + 1) rest)

end Checked

/-! ## Simple values -/

def checkText : Json → Checked String
  | .text s => .ok s
  | _ => .bad .notText

def checkOptional : Json → Checked (Option String)
  | .null => .ok none
  | .text s => .ok (some s)
  | _ => .bad .notText

def checkList (check : Json → Checked α) : Json → Checked (List α)
  | .list items => Checked.listFrom check 0 items
  | _ => .bad .notList

def lower (s : String) : String :=
  s.map fun c => if 'A' ≤ c ∧ c ≤ 'Z' then Char.ofNat (c.toNat + 32) else c

def falseWords : List String := ["0", "off", "f", "false", "n", "no"]
def trueWords : List String := ["1", "on", "t", "true", "y", "yes"]

def boolOfInt (n : Int) : Checked Bool :=
  if n = 0 then .ok false else if n = 1 then .ok true else .bad .unreadableBool

/-- The least integer of 64 bits is `-wordLimit`, the greatest `wordLimit - 1`. -/
def wordLimit : Int := 9223372036854775808

def checkBool : Json → Checked Bool
  | .bool b => .ok b
  | .int n => if -wordLimit ≤ n ∧ n < wordLimit then boolOfInt n else .bad .notBool
  | .float x =>
      match x.toInt? with
      | some n => if -wordLimit < n ∧ n < wordLimit then boolOfInt n else .bad .notBool
      | none => .bad .notBool
  | .text s =>
      if falseWords.contains (lower s) then .ok false
      else if trueWords.contains (lower s) then .ok true
      else .bad .unreadableBool
  | _ => .bad .notBool

/-! ## Depths -/

/-- Characters that are trimmed off a number. -/
def isSpace (c : Char) : Bool :=
  (9 ≤ c.toNat ∧ c.toNat ≤ 13) || c.toNat = 0x20 || c.toNat = 0x85 || c.toNat = 0xA0 ||
    c.toNat = 0x1680 || (0x2000 ≤ c.toNat ∧ c.toNat ≤ 0x200A) || c.toNat = 0x2028 ||
    c.toNat = 0x2029 || c.toNat = 0x202F || c.toNat = 0x205F || c.toNat = 0x3000

def trim (text : List Char) : List Char :=
  ((text.dropWhile isSpace).reverse.dropWhile isSpace).reverse

/-- The most characters that an integer may be written with, its sign included. -/
def digitLimit : Nat := 4300

/-- What a text is, read as an integer. -/
inductive Numeral where
  | int (n : Int)
  | tooLong
  | malformed
deriving DecidableEq, Repr

namespace Numeral

/-- A plain numeral has nothing but digits behind its minus, and no zero in front of
others.  Too many digits are refused before what follows them is looked at. -/
def ofPlain (text : List Char) : Numeral :=
  let negative := text.head? = some '-'
  let (run, rest) := (if negative then text.tail else text).span Double.isDigit
  match run with
  | [] => .malformed
  | ['0'] => if rest = [] then .int 0 else .malformed
  | '0' :: _ => .malformed
  | digits =>
      if digitLimit < digits.length + (if negative then 1 else 0) then .tooLong
      else if rest = [] then
        .int (if negative then -(Double.digitsValue digits : Int) else Double.digitsValue digits)
      else .malformed

/-- What is left behind zeros and underscores, of which `last` was the last: a text
that starts with another digit or a minus, or with `last` in front of a point or the end. -/
def afterZeros (last : Char) : List Char → Option (List Char)
  | [] => some [last]
  | c :: rest =>
      if c = '0' ∨ c = '_' then afterZeros c rest
      else if c = '-' ∨ Double.isDigit c then some (c :: rest)
      else if c = '.' then some (last :: c :: rest)
      else none

def withoutZeros : List Char → Option (List Char)
  | [] => none
  | c :: rest =>
      if c = '0' then afterZeros c rest
      else if Double.isDigit c then some (c :: rest)
      else none

/-- A point with nothing but zeros behind it goes. -/
def withoutPlaces (text : List Char) : List Char :=
  let (whole, rest) := text.span (· ≠ '.')
  match rest with
  | '.' :: places => if places ≠ [] ∧ places.all (· = '0') then whole else text
  | _ => text

def doublesUnderscore : List Char → Bool
  | '_' :: '_' :: _ => true
  | _ :: rest => doublesUnderscore rest
  | [] => false

/-- Single underscores between other characters go. -/
def withoutUnderscores (text : List Char) : List Char :=
  if text.head? = some '_' ∨ text.getLast? = some '_' ∨ doublesUnderscore text then text
  else text.filter (· ≠ '_')

/-- The plain numeral that a looser one stands for: one sign, zeros in front, single
underscores, and a point with zeros are no hindrance. -/
def plain? (text : List Char) : Option (List Char) :=
  let (negative, rest) := Double.takeSign text
  (withoutZeros rest).map fun digits =>
    let digits := withoutUnderscores (withoutPlaces digits)
    if negative then '-' :: digits else digits

def ofText (s : String) : Numeral :=
  let text := trim s.toList
  match ofPlain text with
  | .malformed =>
      match (plain? text).map ofPlain with
      | some (.int n) => .int n
      | _ => .malformed
  | numeral => numeral

end Numeral

def checkInt : Json → Checked Int
  | .int n => .ok n
  | .bool b => .ok (if b then 1 else 0)
  | .float x =>
      match x with
      | .finite .. =>
          match x.toInt? with
          | none => .bad .fraction
          | some n => if -wordLimit < n ∧ n < wordLimit then .ok n else .bad .hugeInt
      | _ => .bad .infinite
  | .text s =>
      match Numeral.ofText s with
      | .int n => .ok n
      | .tooLong => .bad .hugeInt
      | .malformed => .bad .unreadableInt
  | _ => .bad .notInt

def checkDepth (v : Json) : Checked Nat :=
  match checkInt v with
  | .error issues => .error issues
  | .ok n => if n < 0 then .bad .negative else .ok n.toNat

/-! ## Fields -/

abbrev Entries := List (String × Json)

def required (entries : Entries) (name : String) (check : Json → Checked α) : Checked α :=
  Checked.under (.key name) <|
    match Json.lookup name entries with
    | some v => check v
    | none => .bad .missing

def optionalField (entries : Entries) (name : String) (fallback : α)
    (check : Json → Checked α) : Checked α :=
  match Json.lookup name entries with
  | some v => (check v).under (.key name)
  | none => .ok fallback

/-- Fields of an object; anything else is no model. -/
def model (fields : Entries → Checked α) : Json → Checked α
  | .object entries => fields entries
  | _ => .bad .notModel

def bindingFields (entries : Entries) : Checked Binding :=
  Checked.both Binding.mk (required entries "name" checkText) (required entries "value" checkText)

def bindingsField (entries : Entries) : Checked (List Binding) :=
  optionalField entries "variables" [] (checkList (model bindingFields))

def pathsField (entries : Entries) (name : String) : Checked (List String) :=
  optionalField entries name [] (checkList checkText)

def planFields (entries : Entries) : Checked BuildPlan :=
  let make outputs inputs implicitInputs orderOnlyInputs validations implicitOutputs dyndep
      bindings : BuildPlan :=
    ⟨⟨outputs, implicitOutputs, inputs, implicitInputs, orderOnlyInputs, validations⟩,
      dyndep, bindings⟩
  .app
    (.app
      (.app
        (.app
          (.app
            (.app
              (.both make (required entries "outputs" (checkList checkText))
                (pathsField entries "inputs"))
              (pathsField entries "implicit_inputs"))
            (pathsField entries "order_only_inputs"))
          (pathsField entries "validations"))
        (pathsField entries "implicit_outputs"))
      (optionalField entries "dyndep" none checkOptional))
    (bindingsField entries)

def ruleFields (entries : Entries) : Checked Declaration :=
  .app
    (.app
      (.app
        (.both Declaration.rule (required entries "name" checkText)
          (required entries "command" checkText))
        (optionalField entries "pool" none checkOptional))
      (bindingsField entries))
    (optionalField entries "builds" [] (checkList (model planFields)))

def poolFields (entries : Entries) : Checked Declaration :=
  .app
    (.both Declaration.pool (required entries "name" checkText)
      (required entries "depth" checkDepth))
    (bindingsField entries)

/-- The fields that go with a tag. -/
def declarationFields (entries : Entries) : Tag → Checked Declaration
  | .rule => ruleFields entries
  | .build =>
      Checked.both Declaration.build (planFields entries) (required entries "rule" checkText)
  | .phony => (planFields entries).map Declaration.phony
  | .pool => poolFields entries
  | .binding => (bindingFields entries).map Declaration.binding
  | .comment => (required entries "text" checkText).map Declaration.comment
  | .defaults => (required entries "outputs" (checkList checkText)).map Declaration.defaults
  | .subninja => (required entries "path" checkText).map Declaration.subninja
  | .inclusion => (required entries "path" checkText).map Declaration.inclusion

def tagOf? : Json → Option Tag
  | .text s => Tag.ofName? s
  | _ => none

def checkDeclaration : Json → Checked Declaration
  | .object entries =>
      match Json.lookup "kind" entries with
      | none => .bad .noTag
      | some v =>
          match tagOf? v with
          | none => .bad .unknownTag
          | some tag => (declarationFields entries tag).under (.key tag.name)
  | _ => .bad .notMapping

def manifestFields (entries : Entries) : Checked Manifest :=
  .app
    (.both Manifest.mk (optionalField entries "escape" false checkBool)
      (optionalField entries "thread_safe" false checkBool))
    (optionalField entries "statements" [] (checkList checkDeclaration))

def validate (v : Json) : Checked Manifest := model manifestFields v

def limits : Json.Limits := ⟨some 200, some digitLimit⟩

/-- The manifest a JSON text stands for, or what is wrong with it. -/
def ofText (text : String) : Checked Manifest :=
  match Json.read? limits text with
  | none => .bad .notJson
  | some v => validate v

end NinjaFile.Manifest
