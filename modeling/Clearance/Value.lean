import Clearance.Decimal.Shortest
import Clearance.Log.Level
import Clearance.Moment
import Clearance.Text.Loose

/-! Values as callers hand them in: declarations, field requirements, records,
hook answers and log attributes may hold anything, and what the library makes
of a value that does not fit is part of its contract. -/
namespace Clearance

/-- A text for people: as it is given, or one with halves of characters in it. -/
inductive Caption (α : Type) where
  | given (a : α)
  | loose (t : Text.Loose)
deriving DecidableEq

/-- A value of any kind. Objects that are equal to themselves alone have a number
that tells them from each other. -/
inductive Value where
  | null
  | bool (b : Bool)
  | int (n : Int)
  | float (x : Binary64)
  | text (s : String)
  | bytes (octets : List UInt8)
  | list (items : List Value)
  | tuple (items : List Value)
  | set (items : List Value)
  | dict (entries : List (Value × Value))
  /-- An object with attributes. -/
  | record (identity : Nat) (attributes : List (String × Value))
  | uuid (s : String)
  | date (year month day : Nat)
  | moment (m : Moment)
  | level (l : LogLevel)
  /-- The marker that denies regardless of the principal. -/
  | forbidden
  /-- The marker by which a hook leaves the decision to the default rules. -/
  | declined
  /-- An object of which only its identity is known. -/
  | thing (identity : Nat)
  /-- One of several lists and mappings that hold each other. Inside of them
  `back` stands for the one with a number. -/
  | knot (identity : Nat) (members : List Value) (number : Nat)
  | back (number : Nat)
  | credential (name : Value) (label description : Caption Value)
      (implies impliedBy subrights subrightOf : Value)
  | fieldPolicy (field view create edit : Value)

namespace Value

/-! ## Values that hold themselves -/

mutual

/-- A part of a knot as a value of its own: what it says about a member of the
knot is the knot seen from that member. -/
def tie (identity : Nat) (members : List Value) : Value → Value
  | back number => knot identity members number
  | list items => list (tieAll identity members items)
  | tuple items => tuple (tieAll identity members items)
  | dict entries => dict (tieEntries identity members entries)
  | v => v

/-- The parts of a list as values of their own. -/
def tieAll (identity : Nat) (members : List Value) : List Value → List Value
  | [] => []
  | v :: rest => tie identity members v :: tieAll identity members rest

/-- The entries of a mapping with values of their own. -/
def tieEntries (identity : Nat) (members : List Value) :
    List (Value × Value) → List (Value × Value)
  | [] => []
  | (k, v) :: rest => (k, tie identity members v) :: tieEntries identity members rest

end

/-- A value seen from outside: a knot is the list or mapping that it shows. -/
def bare : Value → Value
  | knot identity members number => tie identity members (members.getD number null)
  | v => v

/-! ## Kinds of values -/

/-- What a value is called in messages. -/
def typeName : Value → String
  | null => "NoneType"
  | bool _ => "bool"
  | int _ => "int"
  | float _ => "float"
  | text _ => "str"
  | bytes _ => "bytes"
  | list _ => "list"
  | tuple _ => "tuple"
  | set _ => "set"
  | dict _ => "dict"
  | record .. => "Record"
  | uuid _ => "UUID"
  | date _ _ _ => "date"
  | moment _ => "datetime"
  | level _ => "LogLevel"
  | forbidden => "Forbidden"
  | declined => "NotImplementedType"
  | thing _ => "Opaque"
  | knot _ members number =>
    match members.getD number null with
    | dict _ => "dict"
    | _ => "list"
  | back _ => "list"
  | credential .. => "Credential"
  | fieldPolicy .. => "FieldPolicy"

/-- A type as it is shown itself. -/
def typeText : Value → String
  | forbidden => "<enum 'Forbidden'>"
  | v =>
    let home :=
      match v with
      | uuid _ => "uuid."
      | date .. | moment _ => "datetime."
      | credential .. | fieldPolicy .. => "credentialcore.credentials.models."
      | _ => ""
    "<class '" ++ home ++ v.typeName ++ "'>"

/-- The text of a value that is one. A log level counts as its name. -/
def text? : Value → Option String
  | text s => some s
  | level l => some l.name
  | _ => none

/-- The value, unless it is null. -/
def orNull : Option Value → Value
  | some v => v
  | none => null

/-- Whether a value counts as true: everything but null, false, zero and what is empty. -/
def isTrue : Value → Bool
  | null => false
  | bool b => b
  | int n => n != 0
  | float x => !x.isZero
  | text s => !s.isEmpty
  | bytes octets => !octets.isEmpty
  | list items => !items.isEmpty
  | tuple items => !items.isEmpty
  | set items => !items.isEmpty
  | dict entries => !entries.isEmpty
  | _ => true

/-- A value, or a text in its place when it counts as false. -/
def orText (v : Value) (substitute : String) : Value :=
  if v.isTrue then v else text substitute

end Value

namespace Caption

/-- A caption of a text, or of null. -/
def ofText? : Option (Caption String) → Caption Value
  | none => given .null
  | some (given s) => given (.text s)
  | some (loose t) => loose t

/-- Whether a caption counts as true. -/
def isTrue : Caption Value → Bool
  | given v => v.isTrue
  | loose _ => true

/-- A caption, or a text in its place when it counts as false. -/
def orText (c : Caption Value) (substitute : String) : Caption Value :=
  if c.isTrue then c else given (.text substitute)

/-- A caption as far as it can be shown by characters. -/
def value : Caption Value → Value
  | given v => v
  | loose t => .text t.shown

end Caption

namespace Value

/-- The members that a value yields when it is walked through, if it can be:
a text yields its characters and a mapping its keys. -/
def members? (v : Value) : Option (List Value) :=
  match v.bare with
  | list items => some items
  | tuple items => some items
  | set items => some items
  | dict entries => some (entries.map Prod.fst)
  | text s => some (s.toList.map fun c => text (String.singleton c))
  | level l => some (l.name.toList.map fun c => text (String.singleton c))
  | bytes octets => some (octets.map fun b => int b.toNat)
  | _ => none

/-- The entries of a value that is a mapping. -/
def entries? (v : Value) : Option (List (Value × Value)) :=
  match v.bare with
  | dict entries => some entries
  | _ => none

/-- A list of names. -/
def ofNames (names : List String) : Value :=
  list (names.map text)

/-- A tuple of names. -/
def tupleOfNames (names : List String) : Value :=
  tuple (names.map text)

@[simp] theorem text?_text (s : String) : (text s).text? = some s := rfl

@[simp] theorem entries?_dict (entries : List (Value × Value)) :
    (dict entries).entries? = some entries := rfl

@[simp] theorem members?_list (items : List Value) : (list items).members? = some items := rfl

@[simp] theorem members?_tuple (items : List Value) : (tuple items).members? = some items := rfl

end Value

end Clearance
