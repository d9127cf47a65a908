import Clearance.Policy

/-! Which credentials satisfy an access kind.

An override hook decides first. Without an answer from it the kind itself is
the credential to hold, or, on a field, the requirement of the field policy. A
declared credential stands for itself and everything that implies it. -/
namespace Clearance

/-- What a field asks for. No names mean that it adds no requirement. -/
inductive FieldResolution where
  | forbidden
  | names (names : List Value)

namespace Policy

/-- The rejection of a hook answer that means nothing. -/
def wrongAnswer (p : Policy) (hook : Hook) (kind field answer : Value) : Rejection :=
  .wrongHookAnswer p.entityType hook.title kind field answer

/-- The credential that the entity-level hook names, if there is one and it does not decline. -/
def askHook (p : Policy) (kind record : Value) : Run (Option Value) := do
  match ← Run.ofExcept (p.hooks.findAccess kind) with
  | none => pure none
  | some hook => do
    let answer ← hook.call [record]
    match answer with
    | .declined => pure none
    | answer =>
      if answer.text?.isSome then pure (some answer)
      else Run.reject (p.wrongAnswer hook kind .null answer)

/-- What the log says about a resolved kind. -/
def resolvedText (p : Policy) (kind credential : Value) (names : List Value) : String :=
  "Resolved " ++ kind.plain ++ " access on " ++ p.entityType.plain ++ " via " ++
    credential.plain ++ ": " ++ (Value.list names).quoted

/-- The credential that stands for a kind: the answer of the hook, else the
kind itself, which strict resolution refuses when nobody declares it. -/
def requestedCredential (p : Policy) (kind record : Value) (strict : Bool) : Run Value := do
  match ← p.askHook kind record with
  | some credential => pure credential
  | none => do
    if strict then
      if ← Run.ofExcept (p.hasCredential kind) then pure kind
      else Run.reject (.unknownKind p.entityType kind)
    else pure kind

/-- Whether unknown kinds are refused: as it is said, or as the policy says when null is. -/
def isStrict (p : Policy) (strict : Value) : Bool :=
  match strict with
  | .null => p.strict.isTrue
  | strict => strict.isTrue

/-- The names any of which grants a kind of access to the entity type. -/
def resolveAccess (p : Policy) (kind record strict : Value) : Run (List Value) := do
  let credential ← p.requestedCredential kind record (p.isStrict strict)
  let names ← Run.ofExcept (p.expandValue credential)
  Run.log .resolver .debug (p.resolvedText kind credential names)
  pure names

/-- What the log says about a forbidden field. -/
def forbiddenText (p : Policy) (field kind : Value) : String :=
  "Field " ++ p.entityType.plain ++ "." ++ field.plain ++ " is forbidden for " ++ kind.plain

/-- What the field policy asks for. -/
def resolveByPolicy (p : Policy) (field kind : Value) : Run FieldResolution := do
  let policy ← Run.ofExcept (p.fieldPolicy field)
  match policy with
  | none => pure (.names [])
  | some policy =>
    match policy.requirementFor kind with
    | .free => pure (.names [])
    | .forbidden => do
      Run.log .resolver .debug (p.forbiddenText field kind)
      pure .forbidden
    | .credential name => pure (.names (p.expandRequirement name))

/-- What the answer of a field hook asks for. False is read as forbidden. -/
def resolveByAnswer (p : Policy) (hook : Hook) (field kind answer : Value) :
    Run FieldResolution :=
  match answer with
  | .forbidden | .bool false => do
    Run.log .resolver .debug (p.forbiddenText field kind ++ " by hook")
    pure .forbidden
  | .null => pure (.names [])
  | .declined => p.resolveByPolicy field kind
  | answer =>
    match answer.text? with
    | some _ => pure (.names (p.expandRequirement answer))
    | none => Run.reject (p.wrongAnswer hook kind field answer)

/-- What a field asks for beyond the entity-level check. -/
def resolveField (p : Policy) (field kind record : Value) : Run FieldResolution := do
  match ← Run.ofExcept (p.hooks.findField field kind) with
  | none => p.resolveByPolicy field kind
  | some hook => do
    let answer ← hook.call [record, field]
    p.resolveByAnswer hook field kind answer

end Policy

end Clearance
