import Clearance.Change
import Clearance.Credential
import Clearance.Credential.Name
import Clearance.Entries

/-! The table of declared credentials of one entity type.

A registry keeps declarations as given, in the order in which their names were
first accepted. Declaring a name again merges over what is there. Relations
are neither mirrored nor closed here. -/
namespace Clearance

/-- Declared credentials by the text of their name, in order of first acceptance. -/
structure Registry where
  entityType : Value
  credentials : List (String × Credential)

namespace Registry

/-- A registry without credentials. -/
def empty (entityType : Value) : Registry :=
  ⟨entityType, []⟩

/-- The names in order. -/
def names (r : Registry) : List Value :=
  r.credentials.map fun e => e.2.name

/-- The credential with a name. -/
def find? (r : Registry) (name : String) : Option Credential :=
  r.credentials.lookup name

/-- The credential with a name of any kind. -/
def findValue? (r : Registry) (name : Value) : Option Credential :=
  name.text?.bind r.find?

/-- The registry with a credential in the place of a name. -/
def put (r : Registry) (name : String) (c : Credential) : Registry :=
  { r with credentials := Entries.put name c r.credentials }

@[simp] theorem entityType_put (r : Registry) (name : String) (c : Credential) :
    (r.put name c).entityType = r.entityType := rfl

@[simp] theorem credentials_put (r : Registry) (name : String) (c : Credential) :
    (r.put name c).credentials = Entries.put name c r.credentials := rfl

/-- Refuses the first reference that is not a name, relation by relation. -/
def checkReferences (owner : Value) (c : Credential) : List Relation → Except Failure Unit
  | [] => .ok ()
  | r :: rest =>
    match (c.relation r).members? with
    | none => .error .mismatch
    | some items =>
      match items.find? fun v => v.text?.isNone with
      | some bad => refuse (.notName owner c.name r bad)
      | none => checkReferences owner c rest

/-- The name of a value that can be declared: a credential with an accepted
name whose relations list names. -/
def accept (owner v : Value) : Except Failure (String × Credential) :=
  match Credential.ofValue? v with
  | none => refuse (.notCredential owner v)
  | some c => do
    Name.check owner c.name
    checkReferences owner c Relation.all
    pure (c.name.text?.getD "", c)

/-- What the log says when a name is declared again. -/
def mergeText (owner name : Value) : String :=
  "Merging declaration of " ++ name.plain ++ " into existing " ++ owner.plain ++ " credential"

/-- The credential to keep under a name: the declared one, or what it merges to over the
one that stands there. -/
def kept (r : Registry) (name : String) (c : Credential) : Run Credential :=
  match r.find? name with
  | none => pure c
  | some old => do
    Run.log .registry .debug (mergeText r.entityType c.name)
    Run.ofExcept (old.merge c)

/-- Declares a value, and answers the credential as it is kept. -/
def add (v : Value) : Change Registry Credential := do
  let r ← Change.current
  let (name, c) ← Run.ofExcept (accept r.entityType v)
  let kept ← r.kept name c
  Change.modify (·.put name kept)
  pure kept

/-- Declares a credential by its parts, with relations that may be given as anything that can
be walked through. -/
def declare (draft : Credential) : Change Registry Credential := do
  let c ← Run.ofExcept draft.withTuples
  add c.toValue

/-- Something to declare, and the key that it was given under, if any. -/
structure Item where
  key : Option Value
  value : Value

/-- Refuses a credential whose key is not its name. -/
def checkKey (owner : Value) (item : Item) : Except Failure Unit :=
  match item.key, Credential.ofValue? item.value with
  | some key, some c =>
    if c.name.same key then .ok () else refuse (.misplaced owner c.name key)
  | _, _ => .ok ()

/-- Declares one item. -/
def addItem (item : Item) : Change Registry Credential := do
  let r ← Change.current
  Run.ofExcept (checkKey r.entityType item)
  add item.value

/-- Declares items up to the first that is refused. -/
def addAll : List Item → Change Registry Unit
  | [] => pure ()
  | item :: rest => do
    let _ ← addItem item
    addAll rest

/-- The items of a mapping, with keys, or of anything else that can be walked through. -/
def itemsOf? (v : Value) : Option (List Item) :=
  match v.entries? with
  | some entries => some (entries.map fun e => ⟨some e.1, e.2⟩)
  | none => v.members?.map fun items => items.map fun x => ⟨none, x⟩

/-- Declares all credentials of a collection. -/
def update (credentials : Value) : Change Registry Unit :=
  match itemsOf? credentials with
  | none => Run.fail (α := Unit) .mismatch
  | some items => addAll items

/-- The credentials as a mapping. -/
def toValue (r : Registry) : Value :=
  .dict (r.credentials.map fun e => (e.2.name, e.2.toValue))

/-- Items without keys. -/
def unkeyed (credentials : List Credential) : List Item :=
  credentials.map fun c => ⟨none, c.toValue⟩

/-- A registry of the default credentials, and those of soft deletion when asked for. -/
def withDefaults (entityType : Value) (softDelete : Bool) : Registry :=
  let base := ((empty entityType).addAll (unkeyed Credential.defaults)).1
  if softDelete then (base.addAll (unkeyed Credential.softDeletion)).1 else base

/-- A registry as messages show it. -/
def quoted (r : Registry) : Except Failure String := do
  asWritten (r.entityType :: r.names)
  pure ("CredentialRegistry(entity_type=" ++ r.entityType.quoted ++ ", credentials=" ++
    (Value.list r.names).quoted ++ ")")

end Registry

end Clearance
