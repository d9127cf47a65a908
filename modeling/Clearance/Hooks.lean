import Clearance.Entries
import Clearance.Run
import Clearance.Value.Attribute
import Clearance.Value.Order

/-! Override hooks.

A hook answers in place of the default rules for one access kind, or for one
kind on one field or on all fields. It may name a credential, deny, or decline.
Registering again for the same key replaces the hook in its old place. The
table of a compiled policy is frozen: nothing can be registered on it. -/
namespace Clearance

/-- An override function. Entity-level hooks are called with the record,
field-level hooks with the record and the field. -/
structure Hook where
  title : HookTitle
  call : List Value → Run Value

/-- The answer to a record by its deletion marker: declined without a record. -/
def deletionAnswer (marker record : Value) : Value :=
  match record with
  | .null => .declined
  | record =>
    if (record.attributeOf marker).isNull then .text AccessKind.viewUndeleted.name
    else .text AccessKind.viewDeleted.name

/-- The view hook of soft-deletable records. A record is deleted when its marker is not null. -/
def Hook.softDeletion (marker : String) : Hook where
  title := .named ("soft_delete_view_hook[" ++ marker ++ "]")
  call
    | [record] => Run.answer (deletionAnswer (.text marker) record)
    | _ => Run.fail .mismatch

/-- The hooks of one entity type, each table in order of first registration. They
are kept by kind, or by field and kind. A field hook whose field is null applies
to every field. -/
structure HookTable where
  access : List (Value × Hook)
  fields : List ((Value × Value) × Hook)
  frozen : Bool

namespace HookTable

/-- A table without hooks. -/
def empty : HookTable :=
  ⟨[], [], false⟩

/-- A registration: an entity-level hook for a kind, or a field-level hook for
a kind on one field or, when that is null, on all. -/
inductive Registration where
  | access (kind : Value) (hook : Hook)
  | field (field kind : Value) (hook : Hook)

/-- A table after a registration, unless it is frozen. -/
def register (t : HookTable) (r : Registration) : Except Failure HookTable :=
  if t.frozen then .error .readOnlyHooks
  else
    match r with
    | .access kind hook => do
      asKey kind
      pure { t with access := Entries.put kind hook t.access }
    | .field field kind hook => do
      asKey field
      asKey kind
      pure { t with fields := Entries.put (field, kind) hook t.fields }

/-- The entity-level hook for a kind. -/
def accessHook? (t : HookTable) (kind : Value) : Option Hook :=
  t.access.lookup kind

/-- The hook for a kind on a field: the one for the field itself, else the one for all fields. -/
def fieldHook? (t : HookTable) (field kind : Value) : Option Hook :=
  match t.fields.lookup (field, kind) with
  | some hook => some hook
  | none => t.fields.lookup (.null, kind)

/-- The entity-level hook for a kind, which has to be a key. -/
def findAccess (t : HookTable) (kind : Value) : Except Failure (Option Hook) := do
  asKey kind
  pure (t.accessHook? kind)

/-- The hook for a kind and a field, both of which have to be keys. -/
def findField (t : HookTable) (field kind : Value) : Except Failure (Option Hook) := do
  asKey field
  asKey kind
  pure (t.fieldHook? field kind)

/-- Whether an entity-level hook is registered for a kind. -/
def hasAccess (t : HookTable) (kind : Value) : Except Failure Bool := do
  pure (← t.findAccess kind).isSome

/-- The kinds with entity-level hooks in ascending order, if they have one. -/
def kinds (t : HookTable) : Except Failure (List Value) :=
  orMismatch (Value.sort? (Entries.keys t.access))

/-- A table with the same hooks on which hooks can be registered. -/
def copy (t : HookTable) : HookTable :=
  { t with frozen := false }

/-- A table with the same hooks on which none can be registered. -/
def freeze (t : HookTable) : HookTable :=
  { t with frozen := true }

/-- How many hooks there are. -/
def size (t : HookTable) : Nat :=
  t.access.length + t.fields.length

/-- The key of a field hook as messages show it; a star stands for all fields. -/
def fieldText : Value × Value → String
  | (field, kind) => (field.orText "*").plain ++ ":" ++ kind.plain

/-- A table as messages show it. -/
def quoted (t : HookTable) : Except Failure String := do
  asWritten (t.fields.flatMap fun e => [e.1.1, e.1.2])
  let kinds ← t.kinds
  asWritten kinds
  pure ("AccessHooks(access=" ++ (Value.list kinds).quoted ++ ", fields=" ++
    Value.quotedNames ((t.fields.map fun e => fieldText e.1).mergeSort) ++ ")")

end HookTable

end Clearance
