import Clearance.Checked
import Clearance.Declaration

/-! Reading the sections of declarations. Everything that is wrong with a
section is found at once: known keys in their fixed order first, then unknown
keys as they stand. -/
namespace Clearance

/-- What a field may require: a credential, nothing, or false for forbidden. -/
def readRequirement (v : Value) : Checked Requirement :=
  match v.text?, v with
  | some name, _ => .fits (.credential (.text name))
  | none, .null => .fits .free
  | none, .bool false => .fits .forbidden
  | none, v =>
    if v.writable then
      .fault (.rule ("must be a credential name, null or false, got " ++ v.quoted))
    else .fault (.rule Value.tooManyDigits)

/-- The requirements on one field. -/
def FieldRequirements.read (body : Section) : Checked FieldRequirements :=
  let part (k : FieldKind) := body.optional k.name Requirement.free readRequirement
  body.only (FieldKind.all.map FieldKind.name)
    (FieldRequirements.mk <$> part .view <*> part .create <*> part .edit)

/-- A text for people. -/
def readCaption (v : Value) : Checked (Caption String) :=
  Caption.given <$> readText v

/-- The key that holds the label: `name` wins over `label`. -/
def CredentialBody.labelKey (body : Section) : String :=
  if (body.get? "name").isSome then "name" else "label"

/-- The body of a credential. -/
def CredentialBody.read (body : Section) : Checked CredentialBody :=
  let label := labelKey body
  let names (r : Relation) := body.optional r.name [] readNames
  body.only ([label, "description"] ++ Relation.all.map Relation.name)
    (CredentialBody.mk <$> body.optional label none (readOptional readCaption) <*>
      body.optional "description" none (readOptional readCaption) <*>
      names .implies <*> names .impliedBy <*> names .subrights <*> names .subrightOf)

/-- The section of an entity type. -/
def Declaration.read (body : Section) : Checked Declaration :=
  body.only ["entity_type", "credentials", "fields", "soft_delete", "include_defaults", "strict"]
    (Declaration.mk <$> body.required "entity_type" readFilledText <*>
      body.optional "credentials" []
        (readMapping (readOptional (readSection CredentialBody.read))) <*>
      body.optional "fields" [] (readMapping (readSection FieldRequirements.read)) <*>
      body.optional "soft_delete" false readFlag <*>
      body.optional "include_defaults" true readFlag <*>
      body.optional "strict" none (readOptional readFlag))

namespace Declaration

/-- A section with the entity type that it has when it names none itself. -/
def withEntityType (entityType : Value) (body : Section) : Section :=
  match entityType, body.get? "entity_type" with
  | .null, _ => body
  | _, some _ => body
  | owner, none => body ++ [(.text "entity_type", owner)]

/-- The declaration in a section. Issues are logged before the section is refused. -/
def ofSection (entityType : Value) (body : Section) : Run Declaration :=
  let body := withEntityType entityType body
  match read body with
  | .fits d => Run.answer d
  | .faulty issues => do
    let owner := Value.orNull (body.get? "entity_type")
    Run.ofExcept (asWritten [owner])
    Run.log .declarations .error
      ("Invalid access-control declaration for " ++ Rejection.ownerText owner "<unknown>")
    Run.reject (.invalidSection owner issues)

/-- The declaration in a value, which has to be a mapping. -/
def parse (entityType data : Value) : Run Declaration :=
  match data.entries? with
  | some body => ofSection entityType body
  | none => Run.reject (.sectionNotMapping entityType data)

/-- The declarations of several models, each with the default entity type of
its own name. A section of null declares the default credentials alone. -/
def parseEntries : List (Value × Value) → Run (List (Value × Declaration))
  | [] => Run.answer []
  | (name, body) :: rest => do
    let d ← parse name (match body with
      | .null => .dict []
      | body => body)
    return (name, d) :: (← parseEntries rest)

/-- The declarations in a mapping from model names to sections. -/
def parseAll (data : Value) : Run (List (Value × Declaration)) :=
  match data.entries? with
  | some entries => parseEntries entries
  | none => Run.reject (.declarationsNotMapping data)

/-- The policies of several declarations, with the hooks of each model. -/
def buildAll (hooks : Value → Option HookTable) (settings : Option Settings) :
    List (Value × Declaration) → Run (List (Value × Policy))
  | [] => Run.answer []
  | (name, d) :: rest => do
    let p ← d.build (hooks name) settings
    return (name, p) :: (← buildAll hooks settings rest)

end Declaration

end Clearance
