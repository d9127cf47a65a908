import Clearance.Decimal.Reading
import Clearance.Json

/-! Reading JSON text back into its tree. A number with a point or an exponent is
a floating-point number, every other one an integer. -/
namespace Clearance.Json

/-! ## Looking into a tree -/

/-- The value of the first field with a name. -/
def get? (j : Json) (key : String) : Option Json :=
  match j with
  | object fields => fields.lookup key
  | _ => none

/-- The value of a field; null when it is absent. -/
def get (j : Json) (key : String) : Json :=
  (j.get? key).getD null

/-- The items of an array. -/
def items : Json → List Json
  | array items => items
  | _ => []

/-- The fields of an object. -/
def fields : Json → List (String × Json)
  | object fields => fields
  | _ => []

/-- The text that a value is, if it is one. -/
def text? : Json → Option String
  | text s => some s
  | _ => none

mutual

/-- Whether a field of some name stands anywhere in a tree. -/
def mentions (key : String) : Json → Bool
  | array items => anyMentions key items
  | object fields => fieldsMention key fields
  | _ => false

/-- Whether a field of some name stands in one of several trees. -/
def anyMentions (key : String) : List Json → Bool
  | [] => false
  | j :: rest => mentions key j || anyMentions key rest

/-- Whether a field of some name is among fields or stands below them. -/
def fieldsMention (key : String) : List (String × Json) → Bool
  | [] => false
  | (name, j) :: rest => name == key || mentions key j || fieldsMention key rest

end

/-! ## Reading -/

/-- The text behind white space. -/
def skipSpace (cs : List Char) : List Char :=
  cs.dropWhile fun c => c == ' ' || c == '\t' || c == '\n' || c == '\r'

/-- The number of sixteen bits that four hexadecimal digits spell. -/
def unit? (cs : List Char) : Option Nat :=
  Decimal.readNat? 16 (cs.take 4)

/-- The character behind a backslash, for escapes of a single letter. -/
def simpleEscape? (c : Char) : Option Char :=
  ([('"', '"'), ('\\', '\\'), ('/', '/'), ('n', '\n'), ('r', '\r'), ('t', '\t'),
    ('f', '\x0c'), ('b', '\x08')] : List (Char × Char)).lookup c

/-- The characters up to the closing quote, and the text behind it. -/
def readQuoted : Nat → List Char → Option (List Char × List Char)
  | 0, _ => none
  | _, [] => none
  | _, '"' :: rest => some ([], rest)
  | fuel + 1, '\\' :: 'u' :: rest => do
    let n ← unit? rest
    let rest := rest.drop 4
    let pair := do
      let low ← match rest with
        | '\\' :: 'u' :: more => unit? more
        | _ => none
      Text.ofPair? n low
    let (more, behind) ← readQuoted fuel (if pair.isSome then rest.drop 6 else rest)
    pure (pair.getD (Text.ofCode n) :: more, behind)
  | fuel + 1, '\\' :: c :: rest => do
    let escaped ← simpleEscape? c
    let (more, behind) ← readQuoted fuel rest
    pure (escaped :: more, behind)
  | fuel + 1, c :: rest => do
    let (more, behind) ← readQuoted fuel rest
    pure (c :: more, behind)

/-- A number. -/
def readNumber? (cs : List Char) : Option Json :=
  if cs.all fun c => c.isDigit || c == '-' then (Decimal.readInt? 10 cs).map int
  else (Decimal.readFloat? cs).map float

/-- A character that may stand in a number. -/
def isNumberChar (c : Char) : Bool :=
  c.isDigit || c == '-' || c == '+' || c == '.' || c == 'e' || c == 'E'

mutual

/-- A value and the text behind it. -/
def readValue : Nat → List Char → Option (Json × List Char)
  | 0, _ => none
  | fuel + 1, cs =>
    match skipSpace cs with
    | '"' :: rest => do
      let (s, rest) ← readQuoted (rest.length + 1) rest
      pure (text (String.ofList s), rest)
    | '[' :: rest =>
      match skipSpace rest with
      | ']' :: rest => some (array [], rest)
      | rest => do
        let (items, rest) ← readItems fuel rest
        pure (array items, rest)
    | '\x7b' :: rest =>
      match skipSpace rest with
      | '\x7d' :: rest => some (object [], rest)
      | rest => do
        let (fields, rest) ← readFields fuel rest
        pure (object fields, rest)
    | 't' :: 'r' :: 'u' :: 'e' :: rest => some (bool true, rest)
    | 'f' :: 'a' :: 'l' :: 's' :: 'e' :: rest => some (bool false, rest)
    | 'n' :: 'u' :: 'l' :: 'l' :: rest => some (null, rest)
    | rest => do
      let n ← readNumber? (rest.takeWhile isNumberChar)
      pure (n, rest.dropWhile isNumberChar)

/-- The items of an array up to its end. -/
def readItems : Nat → List Char → Option (List Json × List Char)
  | 0, _ => none
  | fuel + 1, cs => do
    let (x, rest) ← readValue fuel cs
    match skipSpace rest with
    | ']' :: rest => pure ([x], rest)
    | ',' :: rest => do
      let (items, rest) ← readItems fuel rest
      pure (x :: items, rest)
    | _ => none

/-- The fields of an object up to its end. -/
def readFields : Nat → List Char → Option (List (String × Json) × List Char)
  | 0, _ => none
  | fuel + 1, cs =>
    match skipSpace cs with
    | '"' :: rest => do
      let (key, rest) ← readQuoted (rest.length + 1) rest
      match skipSpace rest with
      | ':' :: rest => do
        let (x, rest) ← readValue fuel rest
        let field := (String.ofList key, x)
        match skipSpace rest with
        | '\x7d' :: rest => pure ([field], rest)
        | ',' :: rest => do
          let (fields, rest) ← readFields fuel rest
          pure (field :: fields, rest)
        | _ => none
      | _ => none
    | _ => none

end

/-- The value that a text holds and nothing else. -/
def parse? (s : String) : Option Json := do
  let cs := s.toList
  let (j, rest) ← readValue (cs.length + 1) cs
  if (skipSpace rest).isEmpty then some j else none

end Clearance.Json
