import Clearance.Run
import Clearance.Text.Blank
import Clearance.Text.Search

/-! Names of credentials: which ones are accepted, and the form
`EntityType___credential` in which principals hold them.

A name is formatted only when the entity type declares it; every other name is
global, or formatted already, and stays as it is. -/
namespace Clearance.Name

/-- Whether a name holds the separator of formatted names. -/
def hasSeparator (s : String) : Bool :=
  Text.occursIn separator.toList s.toList

/-- Accepts a name that is a text, is not blank and lacks the separator. -/
def check (owner name : Value) : Except Failure Unit :=
  match name.text? with
  | none => refuse (.blankName owner name)
  | some s =>
    if Text.isBlankText s then refuse (.blankName owner name)
    else if hasSeparator s then refuse (.separatorInName owner s)
    else .ok ()

/-- The formatted name of a credential. -/
def join (entityType name : String) : String :=
  entityType ++ separator ++ name

/-- The name that a principal holds: formatted when it is declared. -/
def format (entityType : Value) (declared : Bool) (name : Value) : Value :=
  if declared then .text (join entityType.plain name.plain) else name

/-- Whether a container holds a name. A text holds every piece of itself. -/
def heldBy? (container name : Value) : Option Bool :=
  match container.text?, name.text? with
  | some s, some piece => some (Text.occursIn piece.toList s.toList)
  | some _, none => none
  | none, _ =>
    match container.bare with
    | .list items | .tuple items | .set items => some (Value.memberOf name items)
    | .dict entries => some (Value.memberOf name (entries.map Prod.fst))
    | _ => none

/-- Formats a name of any kind by a test for declared names. -/
def formatBy (entityType : Value) (declares : Value → Except Failure Bool) (name : Value) :
    Except Failure Value :=
  match name.text? with
  | none => do
    asWritten [name]
    .error (.notName name)
  | some _ => do return format entityType (← declares name) name

/-- Formats every member of a value, keeping the order and dropping duplicates. -/
def formatAllBy (entityType : Value) (declares : Value → Except Failure Bool) (names : Value) :
    Except Failure (List Value) := do
  let items ← orMismatch names.members?
  let formatted ← items.mapM (formatBy entityType declares)
  pure (Value.distinct formatted)

/-- Formats a name by a container of declared names. -/
def formatIn (entityType known name : Value) : Except Failure Value :=
  formatBy entityType (fun n => orMismatch (heldBy? known n)) name

/-- Formats every member of a value by a container of declared names. -/
def formatAllIn (entityType known names : Value) : Except Failure (List Value) :=
  formatAllBy entityType (fun n => orMismatch (heldBy? known n)) names

/-- The entity type and the credential of a formatted name; a name without
a namespace has no entity type. -/
def split (formatted : String) : Option String × String :=
  match Text.splitLast? separator.toList formatted.toList with
  | some (entityType, name) =>
    if entityType.isEmpty then (none, formatted)
    else (some (String.ofList entityType), String.ofList name)
  | none => (none, formatted)

end Clearance.Name
