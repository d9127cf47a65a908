import Clearance.Failure

/-! A place in a YAML text: what is still to be read, and the line and column
that decide about indentation. -/
namespace Clearance.Yaml

/-- The failure for a text that is not YAML. -/
def malformed {α : Type} : Except Failure α :=
  .error (.rejected .unreadableYaml)

/-- The character that stands for the end of the text. No text may hold it. -/
def endMark : Char :=
  '\x00'

/-- Line feed, carriage return, next line, line separator and paragraph separator. -/
def isBreak (c : Char) : Bool :=
  c == '\n' || c == '\r' || c == '\u0085' || c == '\u2028' || c == '\u2029'

/-- A line break or the end. -/
def endsLine (c : Char) : Bool :=
  c == endMark || isBreak c

/-- A line break, a space or the end. -/
def endsItem (c : Char) : Bool :=
  endsLine c || c == ' '

/-- A line break, a space, a tab or the end. -/
def endsWord (c : Char) : Bool :=
  endsItem c || c == '\t'

/-- A letter or digit of ASCII, a hyphen or an underscore. -/
def isNameChar (c : Char) : Bool :=
  c.isAlphanum || c == '-' || c == '_'

/-- A hexadecimal digit. -/
def isHex (c : Char) : Bool :=
  c.isDigit || ('a' ≤ c && c ≤ 'f') || ('A' ≤ c && c ≤ 'F')

/-- The worth of a hexadecimal digit. -/
def hexDigit (c : Char) : Nat :=
  if c.isDigit then c.toNat - 0x30
  else if 'a' ≤ c then c.toNat - 0x61 + 10
  else c.toNat - 0x41 + 10

/-- The number that digits spell in a base. -/
def numberIn (base : Nat) (digits : List Char) : Nat :=
  digits.foldl (fun n c => n * base + hexDigit c) 0

/-- The number that decimal digits spell. -/
def decimal (digits : List Char) : Nat :=
  numberIn 10 digits

/-- The rest of a text and how far it has been read. -/
structure Cursor where
  rest : List Char
  index : Nat := 0
  line : Nat := 0
  column : Nat := 0

namespace Cursor

/-- The character some places ahead, or the end mark. -/
def ahead (c : Cursor) (n : Nat) : Char :=
  c.rest.getD n endMark

/-- The next character, or the end mark. -/
def peek (c : Cursor) : Char :=
  c.ahead 0

/-- The cursor behind the next character. A byte order mark takes no column. -/
def next (c : Cursor) : Cursor :=
  match c.rest with
  | [] => c
  | x :: rest =>
    if isBreak x && !(x == '\r' && rest.head? == some '\n') then
      ⟨rest, c.index + 1, c.line + 1, 0⟩
    else ⟨rest, c.index + 1, c.line, if x == '\ufeff' then c.column else c.column + 1⟩

/-- The cursor behind some characters. -/
def skip : Nat → Cursor → Cursor
  | 0, c => c
  | n + 1, c => skip n c.next

/-- The longest run of characters with a property, and the cursor behind it. -/
def take (p : Char → Bool) (c : Cursor) : List Char × Cursor :=
  let taken := c.rest.takeWhile p
  (taken, c.skip taken.length)

/-- The cursor behind the longest run of characters with a property. -/
def skipWhile (p : Char → Bool) (c : Cursor) : Cursor :=
  (c.take p).2

/-- The cursor behind spaces. -/
def skipSpaces (c : Cursor) : Cursor :=
  c.skipWhile (· == ' ')

/-- The cursor behind a comment, if one starts here. -/
def skipComment (c : Cursor) : Cursor :=
  if c.peek == '#' then c.skipWhile (!endsLine ·) else c

/-- The line break that starts here, as a line feed unless it is a separator of
lines or paragraphs, and the cursor behind it. -/
def readBreak (c : Cursor) : List Char × Cursor :=
  if c.peek == '\r' && c.ahead 1 == '\n' then (['\n'], c.skip 2)
  else if c.peek == '\r' || c.peek == '\n' || c.peek == '\u0085' then (['\n'], c.next)
  else if isBreak c.peek then ([c.peek], c.next)
  else ([], c)

/-- Whether a document marker starts here. -/
def atDocumentMarker (c : Cursor) : Bool :=
  (c.rest.take 3 == ['-', '-', '-'] || c.rest.take 3 == ['.', '.', '.']) && endsWord (c.ahead 3)

/-- The cursor behind what may follow on a line that says nothing more. -/
def skipIgnoredLine (c : Cursor) : Except Failure Cursor :=
  let c := c.skipSpaces.skipComment
  if endsLine c.peek then .ok c.readBreak.2 else malformed

/-- More than the number of characters that are still to be read. -/
def fuel (c : Cursor) : Nat :=
  c.rest.length + 1

end Cursor

end Clearance.Yaml
