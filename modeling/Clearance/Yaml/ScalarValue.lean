import Clearance.Decimal.Reading
import Clearance.Text.Base64
import Clearance.Value
import Clearance.Yaml.Tag

/-! The values that the scalars of YAML spell, by their types. -/
namespace Clearance.Yaml

/-- A value, or the failure for a text that does not spell one. -/
def orIllFormed {α : Type} : Option α → Except Failure α
  | some a => .ok a
  | none => .error .illFormed

/-- A number as written, without underscores, and whether it is negative. A
number without any character has no first place. -/
def signed (text : List Char) : Except Failure (Bool × List Char) :=
  match text.filter (· != '_') with
  | [] => .error .missingPlace
  | cs => .ok (Decimal.splitSign cs)

/-- Places of sixty, the last of which is the smallest. -/
def inSixties (places : List Int) : Int :=
  places.foldl (fun n p => n * 60 + p) 0

/-- An integer without its sign. -/
def readMagnitude (cs : List Char) : Except Failure Int :=
  match cs with
  | [] => .error .missingPlace
  | ['0'] => .ok 0
  | '0' :: 'b' :: ds => orIllFormed (Decimal.readInt? 2 ds)
  | '0' :: 'x' :: ds => orIllFormed (Decimal.readInt? 16 ds)
  | '0' :: ds => orIllFormed (Decimal.readInt? 8 ('0' :: ds))
  | cs =>
    if cs.contains ':' then
      orIllFormed (((Tag.colonParts cs).mapM (Decimal.readInt? 10)).map inSixties)
    else orIllFormed (Decimal.readInt? 10 cs)

/-- The integer that a scalar spells. -/
def readInt (text : List Char) : Except Failure Value := do
  let (negative, cs) ← signed text
  let n ← readMagnitude cs
  pure (.int (if negative then -n else n))

/-- Places of sixty of a floating-point number, the first of which is the smallest.
A place whose worth is too large for such a number cannot be used. -/
def sumSixties (base : Int) : List Binary64 → Binary64 → Except Failure Binary64
  | [], sum => .ok sum
  | p :: rest, sum =>
    let worth := Binary64.ofInt base
    if worth.isInfinite then .error .outOfRange
    else sumSixties (base * 60) rest (sum.add (p.mul worth))

/-- Whether a scalar is the word for what is no number, with or without a sign. -/
def isNaNWord (text : List Char) : Bool :=
  match signed text with
  | .ok (_, cs) => cs.map Char.toLower == ".nan".toList
  | .error _ => false

/-- The floating-point number that a scalar spells. -/
def readFloat (text : List Char) : Except Failure Value := do
  let (negative, cs) ← signed text
  let cs := cs.map Char.toLower
  let sign (x : Binary64) : Value := .float (if negative then x.negate else x)
  if cs == ".inf".toList then pure (sign (Binary64.infinity false))
  else if cs == ".nan".toList then pure (.float Binary64.nan)
  else if cs.contains ':' then do
    let places ← orIllFormed ((Tag.colonParts cs).mapM Decimal.readFloat?)
    return sign (← sumSixties 1 places.reverse (Binary64.zero false))
  else do
    let x ← orIllFormed (Decimal.readFloat? cs)
    pure (sign x)

/-- The truth value that a scalar spells in any case. -/
def readBool (text : List Char) : Except Failure Value :=
  let word := String.ofList (text.map Char.toLower)
  if ["yes", "true", "on"].contains word then .ok (.bool true)
  else if ["no", "false", "off"].contains word then .ok (.bool false)
  else .error .missingKey

/-- Six digits behind the point as a number of microseconds. -/
def microseconds (fraction : List Char) : Nat :=
  decimal ((fraction ++ List.replicate 6 '0').take 6)

/-- The distance of a zone from universal time in minutes. It is shorter than a day. -/
def readOffset : Option (Bool × Nat × Nat) → Except Failure (Option Int)
  | none => .ok none
  | some (behind, hours, minutes) =>
    let n : Int := hours * 60 + minutes
    if n < 1440 then .ok (some (if behind then -n else n)) else .error .illFormed

/-- The date or moment that a timestamp stands for. -/
def readMoment (t : Tag.Timestamp) : Except Failure Value :=
  match t.time with
  | none =>
    if Moment.isDay t.year t.month t.day then .ok (.date t.year t.month t.day)
    else .error .illFormed
  | some time => do
    let offset ← readOffset time.zone
    if Moment.isDay t.year t.month t.day && time.hour < 24 && time.minute < 60 &&
        time.second < 60 then
      pure (.moment ⟨t.year, t.month, t.day, time.hour, time.minute, time.second,
        microseconds time.fraction, offset⟩)
    else .error .illFormed

/-- The date or moment that a scalar spells. -/
def readTimestamp (text : List Char) : Except Failure Value :=
  match Tag.readTimestamp? (Tag.withoutFinalBreak text) with
  | some t => readMoment t
  | none => .error .missingAttribute

/-- The octets that a scalar spells. -/
def readBinary (text : List Char) : Except Failure Value :=
  if text.any (0x80 ≤ ·.toNat) then malformed
  else
    match Text.decodeBase64? text with
    | some octets => .ok (.bytes octets)
    | none => malformed

/-- A number as a value of its own: one that is no number of any worth differs
from all others, unless it is written as the word for it. -/
def distinguished (number : Nat) (text : List Char) (v : Value) : Value :=
  match v with
  | .float x =>
    if x.isNaN && !isNaNWord text then .float (Binary64.nanNumbered (number + 1)) else v
  | v => v

/-- The value of a scalar of some type, given the number of its node. -/
def readScalar (number : Nat) (tag : Tag) (text : List Char) : Except Failure Value :=
  match tag with
  | .null => .ok .null
  | .bool => readBool text
  | .int => readInt text
  | .float => distinguished number text <$> readFloat text
  | .binary => readBinary text
  | .timestamp => readTimestamp text
  | .text => .ok (.text (String.ofList text))
  | _ => malformed


end Clearance.Yaml
