import Clearance.Yaml.Cursor

/-! The types of YAML nodes, and how the type of a plain scalar shows in its
text. -/
namespace Clearance.Yaml

/-- The type of a node. -/
inductive Tag where
  | null
  | bool
  | int
  | float
  | binary
  | timestamp
  | orderedMap
  | pairs
  | set
  | text
  | sequence
  | mapping
  /-- The key under which other mappings are merged in. -/
  | merge
  /-- The key of the default value of a mapping. -/
  | default
  | unknown
deriving DecidableEq

namespace Tag

/-- Types by their names within the language. -/
def named : List (String × Tag) :=
  [("null", null), ("bool", bool), ("int", int), ("float", float), ("binary", binary),
    ("timestamp", timestamp), ("omap", orderedMap), ("pairs", pairs), ("set", set),
    ("str", text), ("seq", sequence), ("map", mapping), ("merge", merge), ("value", default)]

/-- What stands in front of the names of types. -/
def namespaceText : String :=
  "tag:yaml.org,2002:"

/-- The type that a full tag names. -/
def ofText (s : String) : Tag :=
  ((named.find? fun e => namespaceText ++ e.1 == s).map Prod.snd).getD unknown

/-! ## The type of a plain scalar -/

/-- A word in lower case, in upper case or with a capital. -/
def isWord (words : List String) (cs : List Char) : Bool :=
  words.any fun word =>
    let w := word.toList
    cs == w || cs == w.map Char.toUpper || cs == (w.take 1).map Char.toUpper ++ w.drop 1

/-- A text without one line feed at its end. -/
def withoutFinalBreak (cs : List Char) : List Char :=
  if cs.getLast? == some '\n' then cs.dropLast else cs

def isDigitOrLine (c : Char) : Bool :=
  c.isDigit || c == '_'

/-- A number without its sign. -/
def unsigned : List Char → List Char
  | '-' :: rest => rest
  | '+' :: rest => rest
  | cs => cs

/-- Digits of a place of sixty behind a colon. -/
def isSixtieth : List Char → Bool
  | [d] => d.isDigit
  | [t, d] => '0' ≤ t && t ≤ '5' && d.isDigit
  | _ => false

/-- The parts of a text between colons. -/
def colonParts : List Char → List (List Char)
  | [] => [[]]
  | c :: rest =>
    if c == ':' then [] :: colonParts rest
    else
      match colonParts rest with
      | part :: parts => (c :: part) :: parts
      | [] => [[c]]

/-- Places of sixty behind a first number: at least one. -/
def areSixtieths : List (List Char) → Bool
  | [] => false
  | parts => parts.all isSixtieth

/-- An integer in base two, eight, ten, sixteen or sixty. -/
def isIntText (cs : List Char) : Bool :=
  match unsigned cs with
  | ['0'] => true
  | '0' :: 'b' :: ds => !ds.isEmpty && ds.all fun c => c == '0' || c == '1' || c == '_'
  | '0' :: 'x' :: ds => !ds.isEmpty && ds.all fun c => isHex c || c == '_'
  | '0' :: ds => ds.all fun c => ('0' ≤ c && c ≤ '7') || c == '_'
  | d :: ds =>
    d.isDigit &&
      match colonParts (d :: ds) with
      | first :: parts =>
        first.all isDigitOrLine && (parts.isEmpty || areSixtieths parts)
      | [] => false
  | [] => false

/-- An exponent with a sign, or nothing. -/
def isExponent : List Char → Bool
  | [] => true
  | e :: sign :: ds =>
    (e == 'e' || e == 'E') && (sign == '-' || sign == '+') && !ds.isEmpty && ds.all Char.isDigit
  | _ => false

/-- Places behind a point, and an exponent. -/
def arePlaces (cs : List Char) : Bool :=
  isExponent (cs.dropWhile isDigitOrLine)

/-- A number with a point: decimal or in base sixty, an infinity or NaN. -/
def isFloatText (cs : List Char) : Bool :=
  match cs with
  | '.' :: d :: rest =>
    (d.isDigit && arePlaces rest) || isWord ["inf"] (d :: rest) ||
      [['n', 'a', 'n'], ['N', 'a', 'N'], ['N', 'A', 'N']].contains (d :: rest)
  | cs =>
    match unsigned cs with
    | '.' :: rest => isWord ["inf"] rest
    | d :: rest =>
      let whole := d :: rest.takeWhile (· != '.')
      let places := rest.dropWhile (· != '.')
      d.isDigit &&
        match places, colonParts whole with
        | '.' :: places, [first] => first.all isDigitOrLine && arePlaces places
        | '.' :: places, first :: parts =>
          first.all isDigitOrLine && areSixtieths parts && places.all isDigitOrLine
        | _, _ => false
    | [] => false

/-- Reads a number of so many digits at least and at most. -/
def takeDigits? (least most : Nat) (cs : List Char) : Option (Nat × List Char) :=
  let ds := (cs.take most).takeWhile Char.isDigit
  if ds.length < least then none else some (decimal ds, cs.drop ds.length)

/-- Reads one given character. -/
def takeChar? (c : Char) : List Char → Option (List Char)
  | d :: rest => if c = d then some rest else none
  | [] => none

/-- The time of day in a timestamp: hour, minute, second, digits behind the
point, and the zone, of which nothing is known when it is not written. -/
structure TimeOfDay where
  hour : Nat
  minute : Nat
  second : Nat
  fraction : List Char
  /-- Whether the zone lies behind universal time, its hours and its minutes. -/
  zone : Option (Bool × Nat × Nat)

/-- A timestamp as it is written. Whether such a day or time exists is not looked at. -/
structure Timestamp where
  year : Nat
  month : Nat
  day : Nat
  /-- Whether month and day are written with two digits. -/
  padded : Bool
  time : Option TimeOfDay

def isSpaceOrTab (c : Char) : Bool :=
  c == ' ' || c == '\t'

/-- The zone at the end of a timestamp. -/
def readZone? (cs : List Char) : Option (Option (Bool × Nat × Nat)) :=
  match cs.dropWhile isSpaceOrTab with
  | [] => if cs.isEmpty then some none else none
  | ['Z'] => some (some (false, 0, 0))
  | sign :: rest =>
    if sign != '-' && sign != '+' then none
    else do
      let (hours, rest) ← takeDigits? 1 2 rest
      match rest with
      | [] => pure (some (sign == '-', hours, 0))
      | rest => do
        let (minutes, rest) ← takeDigits? 2 2 (← takeChar? ':' rest)
        if rest.isEmpty then pure (some (sign == '-', hours, minutes)) else none

/-- The time of day behind the date of a timestamp. -/
def readTime? (cs : List Char) : Option TimeOfDay := do
  let rest ← match cs with
    | 'T' :: rest => some rest
    | 't' :: rest => some rest
    | c :: rest => if isSpaceOrTab c then some (rest.dropWhile isSpaceOrTab) else none
    | [] => none
  let (hour, rest) ← takeDigits? 1 2 rest
  let (minute, rest) ← takeDigits? 2 2 (← takeChar? ':' rest)
  let (second, rest) ← takeDigits? 2 2 (← takeChar? ':' rest)
  let (fraction, rest) :=
    match rest with
    | '.' :: rest => (rest.takeWhile Char.isDigit, rest.dropWhile Char.isDigit)
    | rest => ([], rest)
  let zone ← readZone? rest
  pure { hour, minute, second, fraction, zone }

/-- A timestamp: a date, alone or with a time of day. -/
def readTimestamp? (cs : List Char) : Option Timestamp := do
  let (year, afterYear) ← takeDigits? 4 4 cs
  let monthText ← takeChar? '-' afterYear
  let (month, afterMonth) ← takeDigits? 1 2 monthText
  let dayText ← takeChar? '-' afterMonth
  let (day, rest) ← takeDigits? 1 2 dayText
  let padded := monthText.length - afterMonth.length = 2 && dayText.length - rest.length = 2
  if rest.isEmpty then pure { year, month, day, padded, time := none }
  else do
    let time ← readTime? rest
    pure { year, month, day, padded, time := some time }

/-- A timestamp as a plain scalar; a date without a time has two digits for month and day. -/
def isTimestampText (cs : List Char) : Bool :=
  (readTimestamp? cs).any fun t => t.time.isSome || t.padded

/-- The type of a plain scalar. A mark of the language has a type without values. -/
def ofPlain (text : List Char) : Tag :=
  let cs := withoutFinalBreak text
  if isWord ["yes", "no", "true", "false", "on", "off"] cs then bool
  else if isFloatText cs then float
  else if isIntText cs then int
  else if cs == ['<', '<'] then merge
  else if text.isEmpty || cs == ['~'] || isWord ["null"] cs then null
  else if isTimestampText cs then timestamp
  else if cs == ['='] then default
  else if [['!'], ['&'], ['*']].contains cs then unknown
  else .text

end Tag

end Clearance.Yaml
