import Clearance.Json
import Clearance.Policy

/-! Declared access control: what the section of one entity type says.

A section lists credentials, each with an optional body, and requirements on
fields, and sets three switches. It is read and checked once; a policy is built
from it any number of times. -/
namespace Clearance

/-- What the body of a credential says. Label and description are for people and may hold
halves of characters. -/
structure CredentialBody where
  label : Option (Caption String) := none
  description : Option (Caption String) := none
  implies : List String := []
  impliedBy : List String := []
  subrights : List String := []
  subrightOf : List String := []
deriving DecidableEq

/-- The credential with a body under a name. -/
def CredentialBody.toCredential (b : CredentialBody) (name : String) : Credential :=
  Credential.ofNames name b.label b.description b.implies b.impliedBy b.subrights b.subrightOf

/-- What a section requires of one field. -/
structure FieldRequirements where
  view : Requirement := .free
  create : Requirement := .free
  edit : Requirement := .free

/-- The requirement for a kind. -/
def FieldRequirements.get (r : FieldRequirements) : FieldKind → Requirement
  | .view => r.view
  | .create => r.create
  | .edit => r.edit

/-- The requirements as a mapping from kinds. -/
def FieldRequirements.toValue (r : FieldRequirements) : Value :=
  .dict (FieldKind.all.map fun k => (.text k.name, (r.get k).toValue))

/-- The section of one entity type. -/
structure Declaration where
  entityType : String
  /-- The declared credentials in order; a credential may stand without a body. -/
  credentials : List (String × Option CredentialBody) := []
  fields : List (String × FieldRequirements) := []
  softDelete : Bool := false
  includeDefaults : Bool := true
  /-- Whether unknown access kinds are refused; the settings decide when nothing is said. -/
  strict : Option Bool := none

namespace Declaration

/-- The declared credentials. -/
def toCredentials (d : Declaration) : List Credential :=
  d.credentials.map fun e => (e.2.getD {}).toCredential e.1

/-- What a policy is built from. -/
def plan (d : Declaration) (hooks : Option HookTable) (settings : Option Settings) :
    Policy.Plan where
  entityType := .text d.entityType
  credentials := .list (d.toCredentials.map Credential.toValue)
  fields := .dict (d.fields.map fun e => (.text e.1, e.2.toValue))
  hooks := hooks
  softDelete := .bool d.softDelete
  includeDefaults := .bool d.includeDefaults
  strict := Value.orNull (d.strict.map Value.bool)
  settings := settings

/-- The policy that a declaration describes. -/
def build (d : Declaration) (hooks : Option HookTable) (settings : Option Settings) : Run Policy :=
  Policy.build (d.plan hooks settings)

/-! ## Fingerprint -/

/-- Entries in ascending order of their keys. -/
def sortedByKey {α : Type} (entries : List (String × α)) : List (String × α) :=
  entries.mergeSort fun a b => a.1 ≤ b.1

/-- A requirement as JSON: forbidden is false. -/
def requirementJson : Requirement → Json
  | .free => .null
  | .forbidden => .bool false
  | .credential name => .text name.plain

/-- The body of a credential as JSON, with its keys in ascending order. -/
def bodyJson : Option CredentialBody → Json
  | none => .null
  | some b =>
    .object [("description", .ofCaption? b.description), ("implied_by", .ofNames b.impliedBy),
      ("implies", .ofNames b.implies), ("label", .ofCaption? b.label),
      ("subright_of", .ofNames b.subrightOf), ("subrights", .ofNames b.subrights)]

/-- The requirements on a field as JSON, with their keys in ascending order. -/
def requirementsJson (r : FieldRequirements) : Json :=
  .object [("create", requirementJson r.create), ("edit", requirementJson r.edit),
    ("view", requirementJson r.view)]

/-- A declaration as JSON, with all keys in ascending order. -/
def toJson (d : Declaration) : Json :=
  .object
    [("credentials", .object (sortedByKey (d.credentials.map fun e => (e.1, bodyJson e.2)))),
      ("entity_type", .text d.entityType),
      ("fields", .object (sortedByKey (d.fields.map fun e => (e.1, requirementsJson e.2)))),
      ("include_defaults", .bool d.includeDefaults),
      ("soft_delete", .bool d.softDelete),
      ("strict", (d.strict.map Json.bool).getD .null)]

/-- A text that two declarations share when they say the same, and, as long as none of them
holds halves of characters, only then. -/
def fingerprint (d : Declaration) : String :=
  String.ofList (d.toJson.render Json.compact)

end Declaration

end Clearance
