import Clearance.Run

/-! Credentials as they are declared: a name, two texts for people and four
lists of other credentials of the same entity type. A declaration may be given
from one side only, and nothing is checked before a registry takes it. -/
namespace Clearance

/-- A declared credential, every part as it was given. -/
structure Credential where
  name : Value
  label : Caption Value := .given .null
  description : Caption Value := .given .null
  implies : Value := .tuple []
  impliedBy : Value := .tuple []
  subrights : Value := .tuple []
  subrightOf : Value := .tuple []

namespace Credential

/-- One of the four relations. -/
def relation (c : Credential) : Relation → Value
  | .implies => c.implies
  | .impliedBy => c.impliedBy
  | .subrights => c.subrights
  | .subrightOf => c.subrightOf

/-- The relation that a value names. -/
def relationNamed (c : Credential) (v : Value) : Except Failure Value :=
  match v.text?.bind Relation.named? with
  | some r => .ok (c.relation r)
  | none => do
    asWritten [v]
    .error (.unknownRelation v)

/-- Every reference to another credential with its relation, in order. -/
def references (c : Credential) : Except Failure (List (Relation × Value)) := do
  let lists ← Relation.all.mapM fun r => do
    let items ← orMismatch (c.relation r).members?
    pure (items.map fun v => (r, v))
  pure lists.flatten

/-- The credential as a value. -/
def toValue (c : Credential) : Value :=
  .credential c.name c.label c.description c.implies c.impliedBy c.subrights c.subrightOf

/-- The credential that a value is, if it is one. -/
def ofValue? : Value → Option Credential
  | .credential n l d i ib s so => some ⟨n, l, d, i, ib, s, so⟩
  | _ => none

@[simp] theorem ofValue?_toValue (c : Credential) : ofValue? c.toValue = some c := rfl

/-- A credential from four lists of names. -/
def ofNames (name : String) (label description : Option (Caption String))
    (implies impliedBy subrights subrightOf : List String) : Credential where
  name := .text name
  label := Caption.ofText? label
  description := Caption.ofText? description
  implies := Value.tupleOfNames implies
  impliedBy := Value.tupleOfNames impliedBy
  subrights := Value.tupleOfNames subrights
  subrightOf := Value.tupleOfNames subrightOf

/-- A credential whose relations are tuples of what the given ones can be walked through for. -/
def withTuples (c : Credential) : Except Failure Credential := do
  let implies ← orMismatch c.implies.members?
  let impliedBy ← orMismatch c.impliedBy.members?
  let subrights ← orMismatch c.subrights.members?
  let subrightOf ← orMismatch c.subrightOf.members?
  pure ⟨c.name, c.label, c.description, .tuple implies, .tuple impliedBy, .tuple subrights,
    .tuple subrightOf⟩

/-- A credential that comes with the library. -/
def supplied (name label description : String) (implies subrights subrightOf : List String) :
    Credential :=
  ofNames name (some (.given label)) (some (.given description)) implies [] subrights subrightOf

/-- The credentials that every entity type starts from. -/
def defaults : List Credential :=
  [supplied "manager" "Exercise full control over a record"
      "Can execute all possible actions on the record" [] ["create", "view", "edit", "delete"] [],
    supplied "create" "Create new record" "Can create new records" [] [] [],
    supplied "view" "View record" "Can view records" [] [] [],
    supplied "edit" "Edit record" "Can edit records" ["view"] [] [],
    supplied "delete" "Delete record" "Can delete records" ["view"] [] []]

/-- The credentials that soft deletion adds: restoring, and viewing by deletion state. -/
def softDeletion : List Credential :=
  [supplied "restore" "Restore record" "Can restore records" ["view_deleted"] [] ["manager"],
    supplied "view_undeleted" "View un-deleted records" "Can view un-deleted records" [] []
      ["view"],
    supplied "view_deleted" "View deleted records" "Can view deleted records" [] [] ["view"]]

/-- The elements of two sequences of one kind, the first sequence first. -/
def concatenate? : Value → Value → Option (List Value)
  | .tuple xs, .tuple ys => some (xs ++ ys)
  | .list xs, .list ys => some (xs ++ ys)
  | .bytes xs, .bytes ys => (Value.bytes (xs ++ ys)).members?
  | a, b => do
    let s ← a.text?
    let t ← b.text?
    (Value.text (s ++ t)).members?

/-- The union of one relation of two credentials, without duplicates. -/
def mergeRelation (base override : Value) : Except Failure Value := do
  let items ← orMismatch (concatenate? base override)
  if Value.allHashable items then pure (.tuple (Value.distinct items)) else .error .mismatch

/-- The caption that wins when an override is set. -/
def prefer (override base : Caption Value) : Caption Value :=
  match override with
  | .given .null => base
  | c => c

/-- A credential with another merged over it: texts of the second win when
set, and each relation is the union of both, that of the first in front. -/
def merge (base override : Credential) : Except Failure Credential := do
  let implies ← mergeRelation base.implies override.implies
  let impliedBy ← mergeRelation base.impliedBy override.impliedBy
  let subrights ← mergeRelation base.subrights override.subrights
  let subrightOf ← mergeRelation base.subrightOf override.subrightOf
  pure ⟨base.name, prefer override.label base.label, prefer override.description base.description,
    implies, impliedBy, subrights, subrightOf⟩

end Credential

end Clearance
