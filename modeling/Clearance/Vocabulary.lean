/-! The fixed words of access control: the built-in access kinds, the kinds a
field can refine, the four relations of a credential, and the separator of
formatted names. -/
namespace Clearance

/-- Stands between the entity type and the credential in a formatted name. -/
def separator : String :=
  "___"

/-- An access kind that every library user knows, which is also the name of a
default credential. -/
inductive AccessKind where
  | manager
  | create
  | view
  | edit
  | delete
  | restore
  | viewUndeleted
  | viewDeleted
deriving DecidableEq

namespace AccessKind

/-- All built-in kinds. -/
def all : List AccessKind :=
  [manager, create, view, edit, delete, restore, viewUndeleted, viewDeleted]

/-- The word for a kind. -/
def name : AccessKind → String
  | manager => "manager"
  | create => "create"
  | view => "view"
  | edit => "edit"
  | delete => "delete"
  | restore => "restore"
  | viewUndeleted => "view_undeleted"
  | viewDeleted => "view_deleted"

end AccessKind

/-- An access kind that a field policy can refine. -/
inductive FieldKind where
  | view
  | create
  | edit
deriving DecidableEq

namespace FieldKind

/-- The kinds in the order in which requirements are listed. -/
def all : List FieldKind :=
  [view, create, edit]

/-- The word for a kind. -/
def name : FieldKind → String
  | view => "view"
  | create => "create"
  | edit => "edit"

/-- The kind that a word names. -/
def named? (s : String) : Option FieldKind :=
  all.find? (·.name == s)

@[simp] theorem named?_name (k : FieldKind) : named? k.name = some k := by
  cases k <;> rfl

end FieldKind

/-- One of the four relations that a credential lists. -/
inductive Relation where
  /-- Credentials satisfied by holding this one. -/
  | implies
  /-- Credentials whose holders also satisfy this one. -/
  | impliedBy
  /-- Credentials this one is the parent of. -/
  | subrights
  /-- Credentials this one is a child of. -/
  | subrightOf
deriving DecidableEq

namespace Relation

/-- The relations in the order in which they are read. -/
def all : List Relation :=
  [implies, impliedBy, subrights, subrightOf]

/-- The word for a relation. -/
def name : Relation → String
  | implies => "implies"
  | impliedBy => "implied_by"
  | subrights => "subrights"
  | subrightOf => "subright_of"

/-- The relation that a word names. -/
def named? (s : String) : Option Relation :=
  all.find? (·.name == s)

@[simp] theorem named?_name (r : Relation) : named? r.name = some r := by
  cases r <;> rfl

theorem mem_all (r : Relation) : r ∈ all := by
  cases r <;> simp [all]

end Relation

end Clearance
