import Clearance.Issue
import Clearance.Value.Text
import Clearance.Vocabulary

/-! Why an operation fails.

A *rejection* is the library's own verdict on what it was given; it has a
kind with a stable code, a message and details. Every other failure says that
a value cannot be used the way the operation uses it, or comes from a hook. -/
namespace Clearance

/-- The kinds of rejections, the most general first. -/
inductive ErrorKind where
  | general
  | configuration
  | unknownReference
  | invalidCredential
  | invalidFieldPolicy
  | invalidHookResult
  | principal
  | unknownAccessKind
deriving DecidableEq

namespace ErrorKind

/-- All kinds. -/
def all : List ErrorKind :=
  [general, configuration, unknownReference, invalidCredential, invalidFieldPolicy,
    invalidHookResult, principal, unknownAccessKind]

/-- The name of the class of errors that a kind is raised as. -/
def name : ErrorKind → String
  | general => "CredentialCoreError"
  | configuration => "ConfigurationError"
  | unknownReference => "UnknownCredentialReference"
  | invalidCredential => "InvalidCredential"
  | invalidFieldPolicy => "InvalidFieldPolicy"
  | invalidHookResult => "InvalidHookResult"
  | principal => "PrincipalError"
  | unknownAccessKind => "UnknownAccessKind"

/-- The kind with a name; the most general one when no kind has it. -/
def ofName (name : String) : ErrorKind :=
  (all.find? fun k => k.name == name).getD general

/-- The stable code of a kind. -/
def code : ErrorKind → String
  | general => "INTERNAL_ERROR"
  | configuration => "CONFIGURATION_ERROR"
  | unknownReference => "UNKNOWN_CREDENTIAL_REFERENCE"
  | invalidCredential => "INVALID_CREDENTIAL"
  | invalidFieldPolicy => "INVALID_FIELD_POLICY"
  | invalidHookResult => "INVALID_HOOK_RESULT"
  | principal => "PRINCIPAL_ERROR"
  | unknownAccessKind => "UNKNOWN_ACCESS_KIND"

/-- The next more general kind. -/
def parent? : ErrorKind → Option ErrorKind
  | general => none
  | configuration => some general
  | unknownAccessKind => some general
  | _ => some configuration

/-- Whether an error of the first kind is also one of the second. -/
def isA (k other : ErrorKind) : Bool :=
  k == other || other == general || (other == configuration && k.parent? == some configuration)

end ErrorKind

/-- The two checks that a principal can be asked in. -/
inductive Check where
  | access
  | fieldAccess
deriving DecidableEq

/-- The name of a check. -/
def Check.name : Check → String
  | access => "has_access"
  | fieldAccess => "has_field_access"

/-- How messages name a hook: by its name, or by the text of an object without one. -/
inductive HookTitle where
  | named (name : String)
  | shown (text : String)
deriving DecidableEq

/-- The title as messages show it. -/
def HookTitle.quoted : HookTitle → String
  | named name => Text.quoted name
  | shown text => text

/-- What the library refuses. The owner is the entity type that was given, if any. -/
inductive Rejection where
  | blankEntityType (got : Value)
  | separatorInEntityType (entityType : String)
  | blankName (owner name : Value)
  | separatorInName (owner : Value) (name : String)
  | notCredential (owner got : Value)
  | notName (owner name : Value) (relation : Relation) (got : Value)
  | misplaced (owner name key : Value)
  | unknownReference (owner name : Value) (relation : Relation) (reference : Value)
  | blankFieldName (owner field : Value)
  | unknownFieldKinds (owner field first : Value) (rest : List Value)
  | fieldNotMapping (owner field got : Value)
  | undeclaredRequirement (owner field : Value) (kind : FieldKind) (name : Value)
  | wrongRequirement (owner field : Value) (kind : FieldKind) (got : Value)
  /-- The field is null when the hook is not asked about one. -/
  | wrongHookAnswer (entityType : Value) (hook : HookTitle) (kind field answer : Value)
  | noPrincipal
  | notHolder (typeName : String)
  | awaitableAnswer (check : Check)
  | unknownKind (entityType kind : Value)
  | declarationsNotMapping (got : Value)
  | sectionNotMapping (owner got : Value)
  | invalidSection (owner : Value) (issues : List Issue)
  | unreadableYaml
  | unreadableFile (path : String)

namespace Rejection

/-- The owner as messages name it: a placeholder stands for one that is absent or empty. -/
def ownerText (owner : Value) (placeholder : String) : String :=
  (owner.orText placeholder).plain

/-- The place of a registry without an entity type. -/
def unbound (owner : Value) : String :=
  ownerText owner "<unbound>"

/-- The part of the message on a dangling reference that names the relation. -/
def danglingText (name : Value) (relation : Relation) (reference : Value) : String :=
  let verb :=
    match relation with
    | .implies => " cannot imply "
    | .impliedBy => " cannot be implied by "
    | .subrights => " cannot be a parent right of "
    | .subrightOf => " cannot be a sub right of "
  name.plain ++ verb ++ reference.plain ++ " since it does not exist."

/-- The kind of a rejection. -/
def kind : Rejection → ErrorKind
  | blankName .. | separatorInName .. | notCredential .. | notName .. | misplaced .. =>
    .invalidCredential
  | unknownReference .. => .unknownReference
  | blankFieldName .. | unknownFieldKinds .. | fieldNotMapping .. | undeclaredRequirement ..
  | wrongRequirement .. => .invalidFieldPolicy
  | wrongHookAnswer .. => .invalidHookResult
  | noPrincipal | notHolder .. | awaitableAnswer .. => .principal
  | unknownKind .. => .unknownAccessKind
  | _ => .configuration

/-- The message of a rejection. -/
def message : Rejection → String
  | blankEntityType got => "entity_type must be a non-empty string, got " ++ got.quoted
  | separatorInEntityType e =>
    "entity_type " ++ Text.quoted e ++ " must not contain " ++ Text.quoted separator
  | blankName owner name =>
    unbound owner ++ ": credential names must be non-empty strings, got " ++ name.quoted
  | separatorInName owner name =>
    unbound owner ++ ": credential name " ++ Text.quoted name ++ " must not contain " ++
      Text.quoted separator
  | notCredential owner got =>
    unbound owner ++ ": credentials must be Credential instances, got " ++ got.typeName
  | notName owner name relation got =>
    unbound owner ++ ": " ++ name.plain ++ "." ++ relation.name ++
      " must list credential names, got " ++ got.quoted
  | misplaced owner name key =>
    unbound owner ++ ": credential " ++ name.quoted ++ " is registered under the key " ++
      key.quoted
  | unknownReference owner name relation reference =>
    unbound owner ++ ": " ++ danglingText name relation reference
  | blankFieldName owner field =>
    owner.plain ++ ": field names must be non-empty strings, got " ++ field.quoted
  | unknownFieldKinds owner field first rest =>
    owner.plain ++ ": field " ++ field.plain ++ " configures unknown access kinds " ++
      (Value.list (first :: rest)).quoted
  | fieldNotMapping owner field got =>
    owner.plain ++ ": field " ++ field.plain ++ " must be configured with a mapping, got " ++
      got.quoted
  | undeclaredRequirement owner field kind name =>
    owner.plain ++ ": " ++ kind.name ++ " credential " ++ name.quoted ++ " of field " ++
      field.plain ++ " is not declared."
  | wrongRequirement owner field kind got =>
    owner.plain ++ ": " ++ kind.name ++ " credential has an invalid type for field " ++
      field.plain ++ ": " ++ got.quoted
  | wrongHookAnswer e hook kind field answer =>
    let target :=
      match field with
      | .null => kind.plain
      | f => kind.plain ++ " on field " ++ f.plain
    e.plain ++ ": hook " ++ hook.quoted ++ " for " ++ target ++ " returned " ++ answer.quoted
  | noPrincipal => "An access check needs a principal; none was supplied."
  | notHolder typeName =>
    "Principal must implement has_credential(credentials, use_and, record), got " ++ typeName
  | awaitableAnswer check =>
    "Principal answered " ++ check.name ++ " with an awaitable; use " ++ check.name ++
      "_async for async principals."
  | unknownKind e kind => e.plain ++ ": unknown access type \"" ++ kind.plain ++ "\"."
  | declarationsNotMapping got =>
    "Declarations must be a mapping of model names, got " ++ got.typeName
  | sectionNotMapping owner got =>
    ownerText owner "<unknown>" ++ ": access-control section must be a mapping, got " ++
      got.typeName
  | invalidSection owner _ =>
    ownerText owner "<unknown>" ++ ": invalid access-control declaration"
  | unreadableYaml => "Invalid YAML in access-control declarations"
  | unreadableFile path => "Cannot read access-control declarations from " ++ path

/-- The values that the message of a rejection writes out. -/
def written : Rejection → List Value
  | blankEntityType got => [got]
  | blankName owner name => [owner, name]
  | separatorInName owner _ | notCredential owner _ | sectionNotMapping owner _
  | invalidSection owner _ => [owner]
  | notName owner name _ got => [owner, name, got]
  | misplaced owner name key => [owner, name, key]
  | unknownReference owner name _ reference => [owner, name, reference]
  | blankFieldName owner field => [owner, field]
  | unknownFieldKinds owner field first rest => owner :: field :: first :: rest
  | fieldNotMapping owner field got | wrongRequirement owner field _ got => [owner, field, got]
  | undeclaredRequirement owner field _ name => [owner, field, name]
  | wrongHookAnswer e _ kind field answer => [e, kind, field, answer]
  | unknownKind e kind => [e, kind]
  | _ => []

/-- The details of a rejection, by name. -/
def details : Rejection → List (String × Value)
  | separatorInEntityType e => [("entity_type", .text e)]
  | blankName owner name => [("entity_type", owner), ("credential", name)]
  | separatorInName owner name => [("entity_type", owner), ("credential", .text name)]
  | notCredential owner got =>
    [("entity_type", owner), ("credential_type", .text got.typeName)]
  | notName owner name relation _ =>
    [("entity_type", owner), ("credential", name), ("relation", .text relation.name)]
  | misplaced owner name key => [("entity_type", owner), ("credential", name), ("key", key)]
  | unknownReference owner name relation reference =>
    [("entity_type", owner), ("credential", name), ("reference", reference),
      ("relation", .text relation.name)]
  | blankFieldName owner field => [("entity_type", owner), ("field", field)]
  | unknownFieldKinds owner field first _ =>
    [("entity_type", owner), ("field", field), ("access_kind", first)]
  | fieldNotMapping owner field _ => [("entity_type", owner), ("field", field)]
  | undeclaredRequirement owner field kind _ | wrongRequirement owner field kind _ =>
    [("entity_type", owner), ("field", field), ("access_kind", .text kind.name)]
  | wrongHookAnswer e _ kind field _ =>
    [("entity_type", e), ("access_kind", kind), ("field", field)]
  | notHolder typeName => [("principal_type", .text typeName)]
  | unknownKind e kind => [("entity_type", e), ("access_kind", kind)]
  | sectionNotMapping owner _ => [("entity_type", owner)]
  | invalidSection owner issues =>
    [("entity_type", owner.orText "<unknown>"),
      ("errors", .list (issues.map Issue.toValue))]
  | unreadableFile path => [("path", .text path)]
  | _ => []

end Rejection

/-- The sections of structured input that can be read on their own. -/
inductive Schema where
  | settings
  | entity
  | fieldPolicy
  | credential
deriving DecidableEq

/-- The name of a section as a whole. -/
def Schema.name : Schema → String
  | settings => "AccessConfig"
  | entity => "EntityDeclaration"
  | fieldPolicy => "FieldPolicyDeclaration"
  | credential => "CredentialDeclaration"

/-- Why an operation fails. -/
inductive Failure where
  /-- The library refuses what it was given. -/
  | rejected (r : Rejection)
  /-- Structured input does not fit its schema. -/
  | invalid (schema : Schema) (issues : List Issue)
  /-- A value is of a kind that the operation cannot use. -/
  | mismatch
  /-- A credential name is not a text. -/
  | notName (got : Value)
  /-- A hook is registered on the table of a compiled policy. -/
  | readOnlyHooks
  /-- A policy is asked for a credential that it does not declare. -/
  | undeclared (entityType name : Value)
  /-- A credential is asked for a relation that does not exist. -/
  | unknownRelation (got : Value)
  | missingKey
  | missingAttribute
  | missingPlace
  /-- A text does not spell a value of the kind it announces. -/
  | illFormed
  /-- A number is too large for what it is used for. -/
  | outOfRange
  /-- A text is too long for memory. -/
  | exhausted
  /-- A value that holds itself is followed without end, or a text opens too many
  collections inside each other. -/
  | endless
  /-- Octets are not UTF-8. -/
  | undecodable
  /-- A hook fails by itself. -/
  | hookFailed (text : String)

/-- The name of the class of errors that a failure is raised as. -/
def Failure.name : Failure → String
  | rejected r => r.kind.name
  | invalid .. => "ValidationError"
  | mismatch | notName _ | readOnlyHooks => "TypeError"
  | undeclared .. | missingKey => "KeyError"
  | unknownRelation _ | illFormed => "ValueError"
  | missingAttribute => "AttributeError"
  | missingPlace => "IndexError"
  | outOfRange => "OverflowError"
  | exhausted => "MemoryError"
  | endless => "RecursionError"
  | undecodable => "UnicodeDecodeError"
  | hookFailed _ => "HookFailure"

/-- The message of a failure that has one. -/
def Failure.message? : Failure → Option String
  | rejected r => some r.message
  | notName got => some ("Invalid credential type: " ++ got.quoted)
  | readOnlyHooks =>
    some "Hooks of a compiled policy are read-only; register on a copy() and rebuild the policy"
  | undeclared e name => some (e.plain ++ " declares no credential " ++ name.quoted)
  | unknownRelation got => some ("Unknown relation: " ++ got.plain)
  | hookFailed text => some text
  | _ => none

/-! ## Failing -/

/-- Values that a text is to show. One with a number that has too many digits has no text. -/
def asWritten (values : List Value) : Except Failure Unit :=
  if values.all Value.writable then .ok () else .error .illFormed

/-- Fails with a rejection, once its message is put together. -/
def refuse {α : Type} (r : Rejection) : Except Failure α := do
  asWritten r.written
  .error (.rejected r)

end Clearance
