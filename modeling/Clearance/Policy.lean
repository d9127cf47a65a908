import Clearance.Closure
import Clearance.FieldPolicy
import Clearance.Hooks
import Clearance.Settings

/-! The compiled access policy of one entity type.

A policy is built once from declarations: default and soft-deletion
credentials, the declared ones merged over them, the closed relations, the
checked field requirements, and a frozen copy of the hooks. It does not change
afterwards. -/
namespace Clearance

/-- The compiled credentials, field policies and hooks of an entity type. -/
structure Policy where
  entityType : Value
  credentials : List Capability
  fields : List FieldPolicy
  hooks : HookTable
  softDelete : Value
  /-- Whether unknown access kinds are refused by default. -/
  strict : Value

namespace Policy

/-! ## Questions to a policy -/

/-- The declared names in order. -/
def names (p : Policy) : List Value :=
  p.credentials.map Capability.name

/-- The compiled credential with a name. -/
def find? (p : Policy) (name : Value) : Option Capability :=
  p.credentials.find? (·.name == name)

/-- Whether a name is declared. -/
def declares (p : Policy) (name : Value) : Bool :=
  (p.find? name).isSome

/-- The requirements of a field, if it is configured. -/
def fieldPolicy? (p : Policy) (field : Value) : Option FieldPolicy :=
  p.fields.find? (·.field == field)

/-- The name in which principals hold a credential. -/
def format (p : Policy) (name : Value) : Value :=
  Name.format p.entityType (p.declares name) name

/-- The names in which principals hold credentials, without duplicates. -/
def formatAll (p : Policy) (names : List Value) : List Value :=
  Value.distinct (names.map p.format)

/-- The names that satisfy a requirement: the credential itself, then the ones that imply it. -/
def expandRequirement (p : Policy) (name : Value) : List Value :=
  match p.find? name with
  | some c => p.formatAll (name :: c.links.impliedBy)
  | none => p.formatAll [name]

/-- Held names with everything they imply. -/
def expand (p : Policy) (held : Value) : Except Failure (List Value) :=
  expandHeld (impliedBy p.credentials) held

/-- Formatted name, label and description of every credential, sorted by name. -/
def choices (p : Policy) : List (Value × Caption Value × Caption Value) :=
  (p.credentials.mergeSort fun a b => compare a.name b.name != .gt).map fun c =>
    (p.format c.name, if c.label.isTrue then c.label else .given c.name, c.description.orText "")

/-! ## Questions with names of any kind -/

/-- Whether a name of any kind is declared. -/
def hasCredential (p : Policy) (name : Value) : Except Failure Bool := do
  asKey name
  pure (p.declares name)

/-- The compiled credential with a name of any kind. -/
def credential (p : Policy) (name : Value) : Except Failure Capability := do
  asKey name
  match p.find? name with
  | some c => pure c
  | none => do
    asWritten [p.entityType, name]
    .error (.undeclared p.entityType name)

/-- The requirements of a field of any kind of name. -/
def fieldPolicy (p : Policy) (field : Value) : Except Failure (Option FieldPolicy) := do
  asKey field
  pure (p.fieldPolicy? field)

/-- The formatted name of a value, which has to be a name. -/
def formatValue (p : Policy) (name : Value) : Except Failure Value :=
  Name.formatBy p.entityType (fun n => .ok (p.declares n)) name

/-- The formatted names of all members of a value, without duplicates. -/
def formatMembers (p : Policy) (names : Value) : Except Failure (List Value) :=
  Name.formatAllBy p.entityType (fun n => .ok (p.declares n)) names

/-- The names that satisfy a requirement of any kind. -/
def expandValue (p : Policy) (name : Value) : Except Failure (List Value) := do
  asKey name
  if name.text?.isSome then pure (p.expandRequirement name)
  else do
    asWritten [name]
    .error (.notName name)

/-! ## Building -/

/-- What a policy is built from. Switches may be values of any kind, of which only
the truth matters; a null switch leaves it to the settings. -/
structure Plan where
  entityType : Value
  credentials : Value := .tuple []
  fields : Value := .null
  hooks : Option HookTable := none
  softDelete : Value := .bool false
  includeDefaults : Value := .bool true
  strict : Value := .null
  settings : Option Settings := none

/-- Accepts an entity type that is a text, is not blank and lacks the separator. -/
def checkEntityType (v : Value) : Except Failure Unit :=
  match v.text? with
  | none => refuse (.blankEntityType v)
  | some s =>
    if Text.isBlankText s then refuse (.blankEntityType v)
    else if Name.hasSeparator s then refuse (.separatorInEntityType s)
    else .ok ()

/-- The registry that declared credentials are merged over. -/
def startRegistry (entityType : Value) (includeDefaults softDelete : Bool) : Registry :=
  if includeDefaults then Registry.withDefaults entityType softDelete
  else if softDelete then
    ((Registry.empty entityType).addAll (Registry.unkeyed Credential.softDeletion)).1
  else Registry.empty entityType

/-- The registry after a collection is declared, if all of it is accepted. -/
def declared (start : Registry) (credentials : Value) : Run Registry :=
  let (final, run) := start.update credentials
  run.andThen fun _ => Run.answer final

/-- The hooks of a policy: soft-deletable types get the record-state view hook
unless a view hook was registered. -/
def policyHooks (plan : Plan) : HookTable :=
  let view := Value.text AccessKind.view.name
  let base := (plan.hooks.getD .empty).copy
  if plan.softDelete.isTrue && (base.accessHook? view).isNone then
    let marker := (plan.settings.getD {}).softDeleteField
    { base with access := Entries.put view (Hook.softDeletion marker) base.access }
  else base

/-- What the log says about a policy. -/
def compiledText (p : Policy) : String :=
  "Access policy for " ++ p.entityType.plain ++ " compiled: " ++ toString p.credentials.length ++
    " credentials, " ++ toString p.fields.length ++ " field policies, " ++
    toString p.hooks.size ++ " hooks"

/-- The strictness of a plan, or that of its settings when it has none. -/
def strictness (plan : Plan) : Value :=
  match plan.strict with
  | .null => .bool (plan.settings.getD {}).strictResolution
  | strict => strict

/-- Builds a policy, or fails for the first thing that is wrong. -/
def build (plan : Plan) : Run Policy := do
  let entityType := plan.entityType
  Run.ofExcept (checkEntityType entityType)
  let start := startRegistry entityType plan.includeDefaults.isTrue plan.softDelete.isTrue
  let registry ← declared start plan.credentials
  let compiled ← registry.declared.compile entityType
  let known : Known := fun name => .ok (compiled.any (·.name == name))
  let fields := if plan.fields.isTrue then plan.fields else .dict []
  let checked ← Run.ofExcept (FieldPolicy.readAll entityType known fields)
  let policy : Policy :=
    { entityType
      credentials := compiled
      fields := checked
      hooks := (policyHooks plan).freeze
      softDelete := plan.softDelete
      strict := strictness plan }
  Run.log .policy .info policy.compiledText
  pure policy

end Policy

end Clearance
