import NinjaFile.Attachment

/-!
# Making nodes

The arguments of a node are turned into text from left to right.  A rule starts
with its command, a pool with its depth, a build with its outputs.
-/

namespace NinjaFile

namespace RuleId

def make (name command ownership : Value) : Action RuleId := do
  let name ← Program.ofExcept name.toArgument
  let ownership ← Program.ofExcept ownership.ownershipOf
  let bindings ← ListId.make ownership false []
  let binding ← makeBinding (.text "command") command
  let _ ← bindings.add binding
  .update fun s => s.insertRule ⟨name, bindings⟩

end RuleId

namespace PoolId

def make (name depth ownership builtIn : Value) : Action PoolId := do
  let name ← Program.ofExcept name.toArgument
  let ownership ← Program.ofExcept ownership.ownershipOf
  let bindings ← ListId.make ownership false []
  let binding ← makeBinding (.text "depth") depth
  let _ ← bindings.add binding
  let attributes : List (String × Value) :=
    match builtIn with
    | .bool _ => []
    | v => [("built_in", v)]
  .update fun s =>
    let (id, s) := s.insertPool ⟨name, bindings, builtIn.isTrue⟩
    (id, s.assignAll (.pool id) attributes)

end PoolId

/-- An empty list for each slot of a build. -/
def makeSlots (ownership : Ownership) : Action (Slots ListId) := do
  let outputs ← ListId.make ownership false []
  let implicitOutputs ← ListId.make ownership false []
  let inputs ← ListId.make ownership false []
  let implicitInputs ← ListId.make ownership false []
  let orderOnlyInputs ← ListId.make ownership false []
  let validations ← ListId.make ownership false []
  return ⟨outputs, implicitOutputs, inputs, implicitInputs, orderOnlyInputs, validations⟩

namespace BuildId

/-- A build that keeps the name of what it is made from. -/
def make (rule outputs ownership : Value) : Action BuildId := do
  let ruleName ← rule.member "name"
  let ownership ← Program.ofExcept ownership.ownershipOf
  let paths ← makeSlots ownership
  let bindings ← ListId.make ownership false []
  let texts ← outputs.arguments
  paths.outputs.extend (texts.map .text)
  let attributes : List (String × Value) :=
    match ruleName with
    | .text _ => []
    | v => [("rule_name", v)]
  .update fun s =>
    let (id, s) := s.insertBuild ⟨ruleName.text?.getD "", paths, bindings⟩
    (id, s.assignAll (.build id) attributes)

end BuildId

/-! ## Statements without lists of their own -/

/-- A fixed object with a serial number of its own. -/
def makeObject (f : Serial → Object) : Action Value :=
  .update fun s => (.object (f s.serial), { s with serial := s.serial + 1 })

def makeComment (text : Value) : Action Value := do
  let text ← Program.ofExcept text.toArgument
  makeObject fun serial => .comment serial text

def makeDefaults (outputs : Value) : Action Value := do
  let outputs ← outputs.arguments
  makeObject fun serial => .defaults serial outputs

def makeSubninja (path : Value) : Action Value := do
  let path ← Program.ofExcept path.toArgument
  makeObject fun serial => .subninja serial path

def makeInclusion (path : Value) : Action Value := do
  let path ← Program.ofExcept path.toArgument
  makeObject fun serial => .inclusion serial path

/-! ## Statements made through handles -/

namespace Handle

def toValue (h : Handle) : Value := .object (.handle h)

/-- A build with the rule of this handle, appended to its arena. -/
def build (h : Handle) (outputs : Value) : Action Handle := do
  let ownership ← (← h.statements).member "ownership"
  let b ← BuildId.make h.toValue outputs ownership
  (← h.statements).insert .build (.object (.build b))

/-- A rule that runs in the pool of this handle, appended to its arena. -/
def rule (h : Handle) (name command : Value) : Action Handle := do
  let ownership ← (← h.statements).member "ownership"
  let r ← RuleId.make name command ownership
  Receiver.usePool (.node (.rule r)) h.toValue
  (← h.statements).insert .rule (.object (.rule r))

end Handle

end NinjaFile
