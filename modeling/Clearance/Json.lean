import Clearance.Failure

/-! JSON as the library writes it: the tree of a value and its text.

The text of a tree is written in one of two styles. The compact one is pure
ASCII without blanks, the readable one keeps every character that needs no
escape. -/
namespace Clearance

/-- A JSON value. The fields of an object keep their order. -/
inductive Json where
  | null
  | bool (b : Bool)
  | int (n : Int)
  | float (x : Binary64)
  | text (s : String)
  | loose (t : Text.Loose)
  | array (items : List Json)
  | object (fields : List (String × Json))

namespace Json

/-- How a text of JSON is laid out. -/
structure Style where
  /-- Whether every character beyond ASCII is escaped. -/
  ascii : Bool
  /-- What stands between items. -/
  comma : List Char
  /-- What stands between a key and its value. -/
  colon : List Char

/-- Pure ASCII without blanks. -/
def compact : Style :=
  ⟨true, [','], [':']⟩

/-- With a space behind commas and colons. -/
def readable : Style :=
  ⟨false, [',', ' '], [':', ' ']⟩

/-- The escape of a number of sixteen bits. -/
def unit (n : Nat) : List Char :=
  '\\' :: 'u' :: Text.hex 4 n

/-- The escape of a character: one unit of sixteen bits, or two beyond them. -/
def units (c : Char) : List Char :=
  let n := c.toNat
  if n < 0x10000 then unit n
  else unit (0xd800 + (n - 0x10000) / 0x400) ++ unit (0xdc00 + (n - 0x10000) % 0x400)

/-- One character inside quotes. -/
def escaped (ascii : Bool) (c : Char) : List Char :=
  if c = '"' then ['\\', '"']
  else if c = '\\' then ['\\', '\\']
  else if c = '\n' then ['\\', 'n']
  else if c = '\r' then ['\\', 'r']
  else if c = '\t' then ['\\', 't']
  else if c = '\x0c' then ['\\', 'f']
  else if c = '\x08' then ['\\', 'b']
  else if c.toNat < 0x20 || (ascii && 0x7f ≤ c.toNat) then units c
  else [c]

/-- One character or half inside quotes. A half is always escaped. -/
def escapedPoint (ascii : Bool) : Text.Point → List Char
  | .char c => escaped ascii c
  | .half h => unit h.code

/-- A text in quotes. -/
def quoted (ascii : Bool) (s : String) : List Char :=
  '"' :: s.toList.flatMap (escaped ascii) ++ ['"']

/-- How floating-point numbers without digits read. -/
def specialNames : Decimal.SpecialNames :=
  ⟨"NaN", "Infinity"⟩

/-- The text of a floating-point number. -/
def floatText (x : Binary64) : String :=
  Decimal.text specialNames x

/-- Parts with commas between them. -/
def separated (comma : List Char) : List (List Char) → List Char
  | [] => []
  | [part] => part
  | part :: rest => part ++ comma ++ separated comma rest

mutual

/-- The text of a value. -/
def render (style : Style) : Json → List Char
  | null => "null".toList
  | bool b => if b then "true".toList else "false".toList
  | int n => (toString n).toList
  | float x => (floatText x).toList
  | text s => quoted style.ascii s
  | loose t => '"' :: t.points.flatMap (escapedPoint style.ascii) ++ ['"']
  | array items => '[' :: separated style.comma (renderAll style items) ++ [']']
  | object fields => '\x7b' :: separated style.comma (renderFields style fields) ++ ['\x7d']

/-- The texts of the items of an array. -/
def renderAll (style : Style) : List Json → List (List Char)
  | [] => []
  | x :: rest => render style x :: renderAll style rest

/-- The texts of the fields of an object. -/
def renderFields (style : Style) : List (String × Json) → List (List Char)
  | [] => []
  | (key, x) :: rest =>
    (quoted style.ascii key ++ style.colon ++ render style x) :: renderFields style rest

end

/-- An array of texts. -/
def ofNames (names : List String) : Json :=
  array (names.map text)

/-- A caption, or null. -/
def ofCaption? : Option (Caption String) → Json
  | some (.given s) => text s
  | some (.loose t) => loose t
  | none => null

/-! ## The JSON of a value of any kind -/

/-- The key of an object that a value can be, if it can: texts, numbers, truth
values and null. -/
def keyOf? : Value → Option String
  | .text s => some s
  | .level l => some l.name
  | .null => some "null"
  | .bool b => some (if b then "true" else "false")
  | .int n => some (toString n)
  | .float x => some (floatText x)
  | _ => none

mutual

/-- The JSON of a value. A value that JSON does not know stands as its text.
A collection inside itself, a key that cannot be one and a number with too many
digits have no JSON. -/
def ofValue : Value → Except Failure Json
  | .null => .ok null
  | .bool b => .ok (bool b)
  | .int n => do
    asWritten [.int n]
    return int n
  | .float x => .ok (float x)
  | .text s => .ok (text s)
  | .level l => .ok (text l.name)
  | .list items => do return array (← ofValues items)
  | .tuple items => do return array (← ofValues items)
  | .dict entries => do return object (← ofEntries entries)
  | .knot .. => .error .illFormed
  | v => do
    asWritten [v]
    return text v.plain

/-- The JSON of all values of a list. -/
def ofValues : List Value → Except Failure (List Json)
  | [] => .ok []
  | x :: rest => do
    let j ← ofValue x
    return j :: (← ofValues rest)

/-- The JSON of the entries of a mapping. -/
def ofEntries : List (Value × Value) → Except Failure (List (String × Json))
  | [] => .ok []
  | (k, v) :: rest => do
    match keyOf? k with
    | none => .error .mismatch
    | some key =>
      asWritten [k]
      let j ← ofValue v
      return (key, j) :: (← ofEntries rest)

end

end Json

end Clearance
