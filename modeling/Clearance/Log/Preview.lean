import Clearance.Json
import Clearance.Text.Blank

/-! Previews: any value as a short text on one line. Blanks of every kind are
single spaces, and a text beyond the limit is cut and marked with an ellipsis. -/
namespace Clearance.Log

/-- The mark of a text that was cut. -/
def ellipsis : Char :=
  '…'

/-- How long a preview is when nothing else is asked for. -/
def defaultLimit : Int := 240

/-- Whether a value is written as JSON. -/
def isStructured : Value → Bool
  | .list _ => true
  | .tuple _ => true
  | .dict _ => true
  | .knot .. => true
  | _ => false

/-- A value as it reads. -/
def plainText (v : Value) : Except Failure (List Char) := do
  asWritten [v]
  pure v.plain.toList

/-- The text that a preview is made from: collections as JSON when they have
one, all else as it reads. -/
def previewText (v : Value) : Except Failure (List Char) :=
  match v.text? with
  | some s => .ok s.toList
  | none =>
    if isStructured v then
      match Json.ofValue v with
      | .ok j => .ok (j.render Json.readable)
      | .error _ => plainText v
    else plainText v

/-- The first characters of a text; a negative number counts from its end. -/
def firstChars (count : Int) (cs : List Char) : List Char :=
  if 0 ≤ count then cs.take count.toNat else cs.take (cs.length - count.natAbs)

/-- A text within a limit: the text itself, or its start with an ellipsis. -/
def cut (limit : Int) (cs : List Char) : List Char :=
  if limit < cs.length then firstChars (limit - 1) cs ++ [ellipsis] else cs

/-- The whole preview of a value, without a limit. -/
def wholePreview (v : Value) : Except Failure (List Char) := do
  let cs ← previewText v
  pure (Text.singleSpaced cs)

/-- The preview of a value; null has an empty one. -/
def preview (limit : Int) (v : Value) : Except Failure String :=
  match v with
  | .null => .ok ""
  | v => do
    let cs ← wholePreview v
    pure (String.ofList (cut limit cs))

/-- The preview of a value within a limit of any kind. A text can be compared
with every number, but cut only at an integer. -/
def previewWithin (limit v : Value) : Except Failure String :=
  match v, limit with
  | .null, _ => .ok ""
  | v, .int n => preview n v
  | v, .bool b => preview (if b then 1 else 0) v
  | v, limit => do
    let cs ← wholePreview v
    match limit with
    | .float x =>
      if x.compareInt? cs.length = some .lt then .error .mismatch else pure (String.ofList cs)
    | _ => .error .mismatch

end Clearance.Log
