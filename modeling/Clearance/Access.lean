import Clearance.Principal
import Clearance.Resolution

/-! Access checks: a policy, a principal and a decision.

For an access kind the principal must hold any credential of the resolved set.
On a field it must satisfy the entity-level set and the field-level set, any
member of each. A field that is forbidden is denied before the principal is
asked. Every decision is logged once. Each of the two checks has a form that
awaits an answer which is not there yet. -/
namespace Clearance

/-- The holder behind a principal. -/
def Principal.require : Principal → Except Failure Holder
  | nobody => refuse .noPrincipal
  | stranger typeName => refuse (.notHolder typeName)
  | holder h => .ok h

/-- The truth of an answer, which has to be there at once. -/
def Answer.atOnce (check : Check) : Answer → Run Bool
  | now v => pure v.isTrue
  | later _ => Run.reject (.awaitableAnswer check)

/-- An answer, awaited if it is not there yet. -/
def Answer.awaited : Answer → Run Value
  | now v => pure v
  | later run => run

namespace Policy

/-- What the log says about a decision. -/
def decisionText (p : Policy) (kind field : Value) (granted : Bool) : String :=
  let place := if field.isTrue then "." ++ field.plain else ""
  kind.plain ++ " " ++ p.entityType.plain ++ place ++ " -> " ++
    if granted then "granted" else "denied"

/-- Logs a decision with the entity type and answers it. The field is null when
the whole entity type is accessed. -/
def decided (p : Policy) (kind field : Value) (granted : Bool) : Run Bool := do
  Run.emit (.logged ⟨.access, .debug, p.decisionText kind field granted, some p.entityType⟩)
  pure granted

/-- The groups of names of a field check, or nothing when the field is forbidden.
An empty field group adds nothing. -/
def fieldRequest (p : Policy) (field kind record strict : Value) :
    Run (Option (List (List Value))) := do
  match ← p.resolveField field kind record with
  | .forbidden => pure none
  | .names fieldNames => do
    let names ← p.resolveAccess kind record strict
    pure (some (names :: if fieldNames.isEmpty then [] else [fieldNames]))

/-- Whether a principal may access the entity type in a kind. -/
def hasAccess (principal : Principal) (p : Policy) (kind record strict : Value) : Run Bool := do
  let holder ← Run.ofExcept principal.require
  let names ← p.resolveAccess kind record strict
  let answer ← holder.ask (.list names) false record
  let granted ← answer.atOnce .access
  p.decided kind .null granted

/-- Whether a principal may access a field of the entity type in a kind. -/
def hasFieldAccess (principal : Principal) (p : Policy) (field kind record strict : Value) :
    Run Bool := do
  let holder ← Run.ofExcept principal.require
  match ← p.fieldRequest field kind record strict with
  | none => p.decided kind field false
  | some groups => do
    let answer ← holder.ask (.list (groups.map Value.list)) true record
    let granted ← answer.atOnce .fieldAccess
    p.decided kind field granted

/-- Whether a principal who may have to be awaited may access the entity type in a kind. -/
def hasAccessAwaited (principal : Principal) (p : Policy) (kind record strict : Value) :
    Run Bool := do
  let holder ← Run.ofExcept principal.require
  let names ← p.resolveAccess kind record strict
  let answer ← holder.ask (.list names) false record
  let v ← answer.awaited
  p.decided kind .null v.isTrue

/-- Whether a principal who may have to be awaited may access a field in a kind. -/
def hasFieldAccessAwaited (principal : Principal) (p : Policy)
    (field kind record strict : Value) : Run Bool := do
  let holder ← Run.ofExcept principal.require
  match ← p.fieldRequest field kind record strict with
  | none => p.decided kind field false
  | some groups => do
    let answer ← holder.ask (.list (groups.map Value.list)) true record
    let v ← answer.awaited
    p.decided kind field v.isTrue

end Policy

/-! ## Choosing a form -/

/-- How a check treats an answer that has to be awaited. -/
inductive Mode where
  /-- It is refused. -/
  | direct
  /-- It is awaited. -/
  | awaiting
deriving DecidableEq

namespace Policy

/-- The check of an entity type in a mode. -/
def checkAccess (mode : Mode) (principal : Principal) (p : Policy)
    (kind record strict : Value) : Run Bool :=
  match mode with
  | .direct => hasAccess principal p kind record strict
  | .awaiting => hasAccessAwaited principal p kind record strict

/-- The check of a field in a mode. -/
def checkFieldAccess (mode : Mode) (principal : Principal) (p : Policy)
    (field kind record strict : Value) : Run Bool :=
  match mode with
  | .direct => hasFieldAccess principal p field kind record strict
  | .awaiting => hasFieldAccessAwaited principal p field kind record strict

end Policy

end Clearance
