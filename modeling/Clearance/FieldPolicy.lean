import Clearance.Run
import Clearance.Value.Attribute
import Clearance.Value.Order

/-! Requirements on single fields.

For each of view, create and edit a field may name a credential, require
nothing, or be forbidden whatever the principal holds. A kind that a field
cannot refine never adds a requirement. -/
namespace Clearance

/-- What a field requires for one kind of access. -/
inductive Requirement where
  | free
  | forbidden
  | credential (name : Value)

/-- A requirement as a value. -/
def Requirement.toValue : Requirement → Value
  | free => .null
  | forbidden => .forbidden
  | credential name => name

/-- The requirements of one field. -/
structure FieldPolicy where
  field : Value
  view : Requirement
  create : Requirement
  edit : Requirement

namespace FieldPolicy

/-- The requirement for a kind. -/
def requirement (p : FieldPolicy) : FieldKind → Requirement
  | .view => p.view
  | .create => p.create
  | .edit => p.edit

/-- The requirement for any access kind. -/
def requirementFor (p : FieldPolicy) (kind : Value) : Requirement :=
  match kind.text?.bind FieldKind.named? with
  | some k => p.requirement k
  | none => .free

end FieldPolicy

/-- Requirements of a field as they are given, before they are checked. -/
structure FieldDraft where
  field : Value
  view : Value := .null
  create : Value := .null
  edit : Value := .null

namespace FieldDraft

/-- The value for a kind. -/
def get (d : FieldDraft) : FieldKind → Value
  | .view => d.view
  | .create => d.create
  | .edit => d.edit

/-- The value for any access kind; null for one that a field cannot refine. -/
def requirement (d : FieldDraft) (kind : Value) : Value :=
  match kind.text?.bind FieldKind.named? with
  | some k => d.get k
  | none => .null

/-- Whether a kind is denied regardless of the principal. -/
def isForbidden (d : FieldDraft) (kind : Value) : Bool :=
  d.requirement kind matches .forbidden

/-- The draft as a value. -/
def toValue (d : FieldDraft) : Value :=
  .fieldPolicy d.field d.view d.create d.edit

/-- The draft that a value is, if it is one. -/
def ofValue? : Value → Option FieldDraft
  | .fieldPolicy f v c e => some ⟨f, v, c, e⟩
  | _ => none

end FieldDraft

/-- Whether a name is one of the credentials that requirements may use. -/
abbrev Known :=
  Value → Except Failure Bool

namespace FieldPolicy

/-- The requirement that a value states. False is read as forbidden. -/
def readRequirement (owner : Value) (known : Known) (field : Value) (kind : FieldKind)
    (v : Value) : Except Failure Requirement :=
  match v with
  | .null => .ok .free
  | .forbidden => .ok .forbidden
  | .bool false => .ok .forbidden
  | v =>
    match v.text? with
    | none => refuse (.wrongRequirement owner field kind v)
    | some _ => do
      if ← known v then pure (.credential v)
      else refuse (.undeclaredRequirement owner field kind v)

/-- The draft of a field from what it is configured with. -/
def draft (owner field spec : Value) : Except Failure FieldDraft :=
  match FieldDraft.ofValue? spec with
  | some d => .ok d
  | none =>
    match spec.entries? with
    | some entries => do
      let unknown := (entries.map Prod.fst).filter fun key =>
        (key.text?.bind FieldKind.named?).isNone
      match ← orMismatch (Value.sort? unknown) with
      | first :: rest => refuse (.unknownFieldKinds owner field first rest)
      | [] =>
        let value (k : FieldKind) := Value.orNull (Value.at? (.text k.name) entries)
        pure ⟨field, value .view, value .create, value .edit⟩
    | none => refuse (.fieldNotMapping owner field spec)

/-- The checked requirements of one field. -/
def read (owner : Value) (known : Known) (field spec : Value) : Except Failure FieldPolicy := do
  match field.text? with
  | none => refuse (.blankFieldName owner field)
  | some name =>
    if name.isEmpty then refuse (.blankFieldName owner field)
    else do
      let d ← draft owner field spec
      let view ← readRequirement owner known field .view d.view
      let create ← readRequirement owner known field .create d.create
      let edit ← readRequirement owner known field .edit d.edit
      pure ⟨field, view, create, edit⟩

/-- The checked requirements of all fields, in order. -/
def readAll (owner : Value) (known : Known) (fields : Value) : Except Failure (List FieldPolicy) :=
  match fields.entries? with
  | some entries => entries.mapM fun e => read owner known e.1 e.2
  | none => .error (fields.lacksOperation "items")

end FieldPolicy

end Clearance
