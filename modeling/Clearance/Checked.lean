import Clearance.Entries
import Clearance.Failure
import Clearance.Text.Utf8
import Clearance.Value.Equality
import Clearance.Value.Text

/-! Reading structured input. A reader answers what it read, or everything
that is wrong with the input; parts that are read beside each other add up
their issues in order. -/
namespace Clearance

/-- What was read, or what is wrong. -/
inductive Checked (α : Type) where
  | fits (a : α)
  | faulty (issues : List Issue)

namespace Checked

/-- The issues of two parts, those of the first in front. -/
def apply {α β : Type} : Checked (α → β) → Checked α → Checked β
  | fits f, fits a => fits (f a)
  | fits _, faulty issues => faulty issues
  | faulty issues, fits _ => faulty issues
  | faulty issues, faulty more => faulty (issues ++ more)

instance : Applicative Checked where
  pure := fits
  seq f x := apply f (x ())

/-- A single issue of the value itself. -/
def fault {α : Type} (f : Fault) : Checked α :=
  faulty [⟨[], f⟩]

/-- The same, seen from one step further out. -/
def under {α : Type} (step : Step) : Checked α → Checked α
  | fits a => fits a
  | faulty issues => faulty (issues.map (Issue.under step))

/-- What was read, or the failure that lists what is wrong with input of a schema. -/
def orInvalid {α : Type} (schema : Schema) : Checked α → Except Failure α
  | fits a => .ok a
  | faulty issues => .error (.invalid schema issues)

/-- All parts of a list. -/
def all {α : Type} : List (Checked α) → Checked (List α)
  | [] => fits []
  | x :: rest => List.cons <$> x <*> all rest

@[simp] theorem map_fits {α β : Type} (f : α → β) (a : α) : f <$> fits a = fits (f a) := rfl

@[simp] theorem seq_fits {α β : Type} (f : α → β) (a : α) : fits f <*> fits a = fits (f a) := rfl

end Checked

/-- The step to the value of a key. -/
def Step.ofKey (v : Value) : Step :=
  let ofInt (n : Int) : Step :=
    if -0x8000000000000000 ≤ n && n < 0x8000000000000000 then .place n
    else if Value.isShort n then .key (toString n)
    else .key "<unprintable int object>"
  match v with
  | .bool b => .place (if b then 1 else 0)
  | .int n => ofInt n
  | v => .key (v.text?.getD v.quoted)

/-! ## Single values -/

/-- A text; octets are read as UTF-8, and the marker of denial stands for its word. -/
def readText (v : Value) : Checked String :=
  match v.text?, v with
  | some s, _ => .fits s
  | none, .forbidden => .fits "forbidden"
  | none, .bytes octets =>
    match Text.decodeUtf8? octets with
    | some cs => .fits (String.ofList cs)
    | none => .fault .undecodableText
  | none, _ => .fault .notText

/-- A text that is not empty. -/
def readFilledText (v : Value) : Checked String :=
  match readText v with
  | .fits s => if s.isEmpty then .fault .emptyText else .fits s
  | .faulty issues => .faulty issues

/-- A value that may be null. -/
def readOptional {α : Type} (read : Value → Checked α) (v : Value) : Checked (Option α) :=
  match v with
  | .null => .fits none
  | v => some <$> read v

/-- The truth value that a word stands for, in any case. -/
def readFlagText (cs : List Char) : Checked Bool :=
  let word := String.ofList (cs.map Char.toLower)
  if ["1", "on", "t", "true", "y", "yes"].contains word then .fits true
  else if ["0", "off", "f", "false", "n", "no"].contains word then .fits false
  else .fault .unreadableBoolean

/-- The truth value that an integer stands for; one beyond 64 bits is no truth value at all. -/
def readFlagInt (n : Int) : Checked Bool :=
  if n = 1 then .fits true
  else if n = 0 then .fits false
  else if -0x8000000000000000 ≤ n && n < 0x8000000000000000 then .fault .unreadableBoolean
  else .fault .notBoolean

/-- A truth value, or a word or number that stands for one. -/
def readFlag (v : Value) : Checked Bool :=
  match v.text?, v with
  | some s, _ => readFlagText s.toList
  | none, .bool b => .fits b
  | none, .int n => readFlagInt n
  | none, .float x =>
    match x.toInt? with
    | some n => if n = -0x8000000000000000 then .fault .notBoolean else readFlagInt n
    | none => .fault .notBoolean
  | none, .bytes octets =>
    match Text.decodeUtf8? octets with
    | some cs => readFlagText cs
    | none => .fault .unreadableBoolean
  | none, _ => .fault .notBoolean

/-- The items of a list, a tuple or a set. -/
def listItems? (v : Value) : Option (List Value) :=
  match v.bare with
  | .list items => some items
  | .tuple items => some items
  | .set items => some items
  | _ => none

/-- A list of texts. -/
def readNames (v : Value) : Checked (List String) :=
  match listItems? v with
  | some items => .all (items.mapIdx fun i item => (readText item).under (.place i))
  | none => .fault .notList

/-! ## Sections -/

/-- The entries of a section. -/
abbrev Section :=
  List (Value × Value)

/-- The value of a key. -/
def Section.get? (body : Section) (key : String) : Option Value :=
  Value.at? (.text key) body

/-- The part of a section under a key, or what it is when absent. -/
def Section.optional {α : Type} (body : Section) (key : String) (absent : α)
    (read : Value → Checked α) : Checked α :=
  match body.get? key with
  | some v => (read v).under (.key key)
  | none => .fits absent

/-- The part of a section under a key that has to be there. -/
def Section.required {α : Type} (body : Section) (key : String)
    (read : Value → Checked α) : Checked α :=
  match body.get? key with
  | some v => (read v).under (.key key)
  | none => .faulty [⟨[.key key], .missing⟩]

/-- What is wrong with the keys of a section of which only some are known. -/
def Section.strangers (known : List String) : Section → List Issue
  | [] => []
  | (key, _) :: rest =>
    match key.text? with
    | none => ⟨[Step.ofKey key], .notKey⟩ :: strangers known rest
    | some s =>
      if known.contains s then strangers known rest
      else ⟨[.key s], .unexpected⟩ :: strangers known rest

/-- Adds what is wrong with the keys of a section. -/
def Section.only {α : Type} (body : Section) (known : List String) (read : Checked α) :
    Checked α :=
  match body.strangers known, read with
  | [], read => read
  | issues, .fits _ => .faulty issues
  | issues, .faulty earlier => .faulty (earlier ++ issues)

/-- A section of its own. -/
def readSection {α : Type} (read : Section → Checked α) (v : Value) : Checked α :=
  match v.entries? with
  | some entries => read entries
  | none => .fault .notSection

/-- A mapping from names, whose keys are read like texts. Of two keys that read
alike the value of the second is taken. -/
def readMapping {α : Type} (read : Value → Checked α) (v : Value) : Checked (List (String × α)) :=
  let entry (e : Value × Value) : Checked (String × α) :=
    let step := Step.ofKey e.1
    Prod.mk <$> ((readText e.1).under (.key "[key]")).under step <*> (read e.2).under step
  match v.entries? with
  | some entries => Entries.putAll [] <$> Checked.all (entries.map entry)
  | none => .fault .notMapping

end Clearance
