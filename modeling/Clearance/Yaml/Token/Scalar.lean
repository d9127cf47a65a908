import Clearance.Text.Loose
import Clearance.Text.Utf8
import Clearance.Yaml.Cursor
import Clearance.Yaml.Token

/-! Reading single tokens that hold text: scalars in all styles, tags, anchors
and directives. Each reader starts at its first character and answers what it
read with the cursor behind it. -/
namespace Clearance.Yaml

/-! ## Quoted scalars -/

/-- The character that an escape of one letter stands for. -/
def simpleEscape? (c : Char) : Option Char :=
  ([('0', '\x00'), ('a', '\x07'), ('b', '\x08'), ('t', '\t'), ('\t', '\t'), ('n', '\n'),
    ('v', '\x0b'), ('f', '\x0c'), ('r', '\r'), ('e', '\x1b'), (' ', ' '), ('"', '"'),
    ('\\', '\\'), ('/', '/'), ('N', '\u0085'), ('_', '\u00a0'), ('L', '\u2028'),
    ('P', '\u2029')] : List (Char × Char)).lookup c

/-- The number of digits behind an escape by code point. -/
def escapeWidth? (c : Char) : Option Nat :=
  ([('x', 2), ('u', 4), ('U', 8)] : List (Char × Nat)).lookup c

/-- Line breaks and the blanks around them; no document marker may stand between. -/
def readFoldedBreaks : Nat → Cursor → Except Failure (List Char × Cursor)
  | 0, c => .ok ([], c)
  | fuel + 1, c =>
    if c.atDocumentMarker then malformed
    else
      let c := c.skipWhile fun x => x == ' ' || x == '\t'
      if isBreak c.peek then do
        let (b, c) := c.readBreak
        let (more, c) ← readFoldedBreaks fuel c
        pure (b ++ more, c)
      else .ok ([], c)

/-- What a run of breaks after a first one stands for: one break is a space. -/
def fold (first more : List Char) : List Char :=
  if first != ['\n'] then first ++ more
  else if more.isEmpty then [' ']
  else more

/-- The blanks and breaks inside a quoted scalar. -/
def readQuotedSpaces (c : Cursor) : Except Failure (List Char × Cursor) := do
  let (blanks, c) := c.take fun x => x == ' ' || x == '\t'
  if c.peek == endMark then malformed
  else if isBreak c.peek then do
    let (first, c) := c.readBreak
    let (more, c) ← readFoldedBreaks c.fuel c
    pure (fold first more, c)
  else pure (blanks, c)

/-- What an escape by code point stands for. Code points beyond Unicode are no characters,
and those beyond 31 bits are no code points. -/
def escapedPoint (code : Nat) : Except Failure Text.Point :=
  if 0x7fffffff < code then .error .outOfRange
  else if 0x10ffff < code then .error .illFormed
  else .ok (.ofCode code)

/-- The characters inside a quoted scalar up to a blank, a break or the closing quote. -/
def readQuotedWord (double : Bool) : Nat → Cursor → Except Failure (List Text.Point × Cursor)
  | 0, c => .ok ([], c)
  | fuel + 1, c => do
    let (plain, c) := c.take fun x => !(x == '\x27' || x == '"' || x == '\\' || endsWord x)
    let taken := plain.map Text.Point.char
    let x := c.peek
    if !double && x == '\x27' && c.ahead 1 == '\x27' then do
      let (more, c) ← readQuotedWord double fuel (c.skip 2)
      pure (taken ++ .char '\x27' :: more, c)
    else if (double && x == '\x27') || (!double && (x == '"' || x == '\\')) then do
      let (more, c) ← readQuotedWord double fuel c.next
      pure (taken ++ .char x :: more, c)
    else if double && x == '\\' then do
      let c := c.next
      match simpleEscape? c.peek, escapeWidth? c.peek with
      | some e, _ => do
        let (more, c) ← readQuotedWord double fuel c.next
        pure (taken ++ .char e :: more, c)
      | none, some width => do
        let c := c.next
        let digits := c.rest.take width
        if digits.length < width || !digits.all isHex then malformed
        else do
          let e ← escapedPoint (numberIn 16 digits)
          let (more, c) ← readQuotedWord double fuel (c.skip width)
          pure (taken ++ e :: more, c)
      | none, none =>
        if isBreak c.peek then do
          let (breaks, c) ← readFoldedBreaks c.fuel c.readBreak.2
          let (more, c) ← readQuotedWord double fuel c
          pure (taken ++ breaks.map .char ++ more, c)
        else malformed
    else pure (taken, c)

/-- The words and spaces of a quoted scalar up to the closing quote. -/
def readQuotedRest (double : Bool) : Nat → Cursor → Except Failure (List Text.Point × Cursor)
  | 0, _ => malformed
  | fuel + 1, c => do
    if c.peek == (if double then '"' else '\x27') then pure ([], c.next)
    else do
      let (spaces, c) ← readQuotedSpaces c
      let (word, c) ← readQuotedWord double c.fuel c
      let (more, c) ← readQuotedRest double fuel c
      pure (spaces.map .char ++ word ++ more, c)

/-- A quoted scalar. Halves of characters that are escaped next to each other are taken for
one character. -/
def readQuoted (double : Bool) (c : Cursor) : Except Failure (Token × Cursor) := do
  let c := c.next
  let (word, c) ← readQuotedWord double c.fuel c
  let (more, c) ← readQuotedRest double c.fuel c
  pure (.scalar (Text.joined (word ++ more)) false, c)

/-! ## Plain scalars -/

/-- Breaks and spaces after the first break of a plain scalar; nothing when a
document marker follows. -/
def readPlainBreaks : Nat → Cursor → Option (List Char) × Cursor
  | 0, c => (some [], c)
  | fuel + 1, c =>
    if c.peek == ' ' then readPlainBreaks fuel c.next
    else if isBreak c.peek then
      let (b, c) := c.readBreak
      if c.atDocumentMarker then (none, c)
      else
        let (more, c) := readPlainBreaks fuel c
        (more.map (b ++ ·), c)
    else (some [], c)

/-- The spaces and breaks inside a plain scalar, and whether a line was broken. -/
def readPlainSpaces (c : Cursor) : List Char × Bool × Cursor :=
  let (blanks, c) := c.take (· == ' ')
  if isBreak c.peek then
    let (first, c) := c.readBreak
    if c.atDocumentMarker then ([], true, c)
    else
      match readPlainBreaks c.fuel c with
      | (none, c) => ([], true, c)
      | (some more, c) => (fold first more, true, c)
  else (blanks, false, c)

/-- How many characters a plain scalar goes on without a blank. -/
def plainLength (inFlow : Bool) : List Char → Nat
  | [] => 0
  | x :: rest =>
    let following := rest.headD endMark
    let ends := endsWord x ||
      (x == ':' && (endsWord following ||
        (inFlow && [',', '[', ']', '\x7b', '\x7d'].contains following))) ||
      (inFlow && [',', '?', '[', ']', '\x7b', '\x7d'].contains x)
    if ends then 0 else plainLength inFlow rest + 1

/-- A plain scalar: its text, and whether a key may follow because a line was broken. -/
structure PlainScan where
  text : List Char
  /-- Whether a simple key may start behind the scalar; nothing when no character was read. -/
  brokeLine : Option Bool
  cursor : Cursor

/-- The words of a plain scalar. The indentation of continuation lines is checked in block style. -/
def readPlainWords (inFlow : Bool) (indent : Int) : Nat → List Char → Cursor → PlainScan
  | 0, _, c => ⟨[], none, c⟩
  | fuel + 1, spaces, c =>
    if c.peek == '#' then ⟨[], none, c⟩
    else
      let n := plainLength inFlow c.rest
      if n = 0 then ⟨[], none, c⟩
      else
        let word := c.rest.take n
        let (following, broke, c) := readPlainSpaces (c.skip n)
        if following.isEmpty || c.peek == '#' || (!inFlow && (c.column : Int) < indent) then
          ⟨spaces ++ word, some broke, c⟩
        else
          let more := readPlainWords inFlow indent fuel following c
          ⟨spaces ++ word ++ more.text, some (more.brokeLine.getD broke), more.cursor⟩

/-! ## Block scalars -/

/-- How the line breaks at the end of a block scalar are kept. -/
inductive Chomping where
  | clip
  | strip
  | keep
deriving DecidableEq

/-- The chomping that an indicator stands for. -/
def chompingOf? (c : Char) : Option Chomping :=
  if c == '+' then some .keep else if c == '-' then some .strip else none

/-- The indicators of a block scalar: chomping and an explicit indentation, in either order. -/
def readIndicators (c : Cursor) : Except Failure (Chomping × Option Nat × Cursor) := do
  let increment (c : Cursor) : Except Failure (Option Nat × Cursor) :=
    if c.peek.isDigit then
      if c.peek == '0' then malformed else .ok (some (hexDigit c.peek), c.next)
    else .ok (none, c)
  let (chomping, explicit, c) ← match chompingOf? c.peek with
    | some chomping => do
      let (n, c) ← increment c.next
      pure (chomping, n, c)
    | none => do
      let (n, c) ← increment c
      match n, chompingOf? c.peek with
      | some n, some chomping => pure (chomping, some n, c.next)
      | n, _ => pure (Chomping.clip, n, c)
  if endsItem c.peek then pure (chomping, explicit, c) else malformed

/-- The blank lines in front of a block scalar and the deepest indentation on the way. -/
def readBlockIndentation : Nat → Nat → Cursor → List Char × Nat × Cursor
  | 0, deepest, c => ([], deepest, c)
  | fuel + 1, deepest, c =>
    if c.peek == ' ' then readBlockIndentation fuel (max deepest c.next.column) c.next
    else if isBreak c.peek then
      let (b, c) := c.readBreak
      let (more, deepest, c) := readBlockIndentation fuel deepest c
      (b ++ more, deepest, c)
    else ([], deepest, c)

/-- The cursor behind spaces up to a column. -/
def skipIndent (indent : Nat) (c : Cursor) : Cursor :=
  let spaces := (c.rest.take (indent - c.column)).takeWhile (· == ' ')
  c.skip spaces.length

/-- The blank lines inside a block scalar, and the indentation of the line behind them. -/
def readBlockBreaks (indent : Nat) : Nat → Cursor → List Char × Cursor
  | 0, c => ([], c)
  | fuel + 1, c =>
    let c := skipIndent indent c
    if isBreak c.peek then
      let (b, c) := c.readBreak
      let (more, c) := readBlockBreaks indent fuel c
      (b ++ more, c)
    else ([], c)

/-- The lines of a block scalar: the text up to the last line, the break behind
it and the blank lines after that. -/
def readBlockLines (folded : Bool) (indent : Nat) :
    Nat → List Char → Cursor → List Char × List Char × List Char × Cursor
  | 0, breaks, c => ([], [], breaks, c)
  | fuel + 1, breaks, c =>
    if c.column = indent && c.peek != endMark then
      let startsBlank := c.peek == ' ' || c.peek == '\t'
      let (text, c) := c.take (!endsLine ·)
      let (b, c) := c.readBreak
      let (blank, c) := readBlockBreaks indent c.fuel c
      if c.column = indent && c.peek != endMark then
        let nextBlank := c.peek == ' ' || c.peek == '\t'
        let joint :=
          if folded && b == ['\n'] && !startsBlank && !nextBlank then
            if blank.isEmpty then [' '] else []
          else b
        let (more, last, tail, c) := readBlockLines folded indent fuel blank c
        (breaks ++ text ++ joint ++ more, last, tail, c)
      else (breaks ++ text, b, blank, c)
    else ([], [], breaks, c)

/-- A block scalar inside a block of some indentation. -/
def readBlock (folded : Bool) (outer : Int) (c : Cursor) : Except Failure (Token × Cursor) := do
  let (chomping, explicit, c) ← readIndicators c.next
  let c ← c.skipIgnoredLine
  let least := (max (outer + 1) 1).toNat
  let (breaks, indent, c) :=
    match explicit with
    | none =>
      let (breaks, deepest, c) := readBlockIndentation c.fuel 0 c
      (breaks, max least deepest, c)
    | some n =>
      let indent := least + n - 1
      let (breaks, c) := readBlockBreaks indent c.fuel c
      (breaks, indent, c)
  let (text, last, tail, c) := readBlockLines folded indent c.fuel breaks c
  let ending :=
    match chomping with
    | .strip => []
    | .clip => last
    | .keep => last ++ tail
  pure (.scalar (text ++ ending) false, c)

/-! ## Names, tags and directives -/

/-- The name behind the indicator of an anchor or alias. -/
def readAnchorName (c : Cursor) : Except Failure (String × Cursor) :=
  let (name, c) := c.next.take isNameChar
  let x := c.peek
  if name.isEmpty then malformed
  else if endsWord x || ['?', ':', ',', ']', '\x7d', '%', '@', '\x60'].contains x then
    .ok (String.ofList name, c)
  else malformed

/-- The handle of a tag: an exclamation mark, or a name between two. -/
def readHandle (c : Cursor) : Except Failure (String × Cursor) :=
  if c.peek != '!' then malformed
  else if c.ahead 1 == ' ' then .ok ("!", c.next)
  else
    let name := (c.rest.drop 1).takeWhile isNameChar
    if c.ahead (name.length + 1) == '!' then
      .ok (String.ofList ('!' :: name ++ ['!']), c.skip (name.length + 2))
    else malformed

/-- The octets of a run of escapes in a tag. -/
def readTagOctets : Nat → Cursor → Except Failure (List UInt8 × Cursor)
  | 0, c => .ok ([], c)
  | fuel + 1, c =>
    if c.peek == '%' then
      let a := c.ahead 1
      let b := c.ahead 2
      if isHex a && isHex b then do
        let (more, c) ← readTagOctets fuel (c.skip 3)
        pure (UInt8.ofNat (numberIn 16 [a, b]) :: more, c)
      else malformed
    else .ok ([], c)

/-- A character that may stand in a tag. -/
def isTagChar (c : Char) : Bool :=
  c.isAlphanum || ['-', ';', '/', '?', ':', '@', '&', '=', '+', '$', ',', '_', '.', '!', '~', '*',
    '\x27', '(', ')', '[', ']'].contains c

/-- The characters of a tag, escapes resolved. -/
def readTagChars : Nat → Cursor → Except Failure (List Char × Cursor)
  | 0, c => .ok ([], c)
  | fuel + 1, c =>
    if isTagChar c.peek then do
      let (more, rest) ← readTagChars fuel c.next
      pure (c.peek :: more, rest)
    else if c.peek == '%' then do
      let (octets, c) ← readTagOctets c.fuel c
      match Text.decodeUtf8? octets with
      | none => malformed
      | some text => do
        let (more, c) ← readTagChars fuel c
        pure (text ++ more, c)
    else .ok ([], c)

/-- The text of a tag, which may not be empty. -/
def readTagText (c : Cursor) : Except Failure (String × Cursor) := do
  let (text, rest) ← readTagChars c.fuel c
  if rest.index = c.index then malformed else pure (String.ofList text, rest)

/-- A tag: verbatim, non-specific, or a suffix behind a handle. -/
def readTag (c : Cursor) : Except Failure (Token × Cursor) := do
  let (token, c) ←
    if c.ahead 1 == '<' then do
      let (text, c) ← readTagText (c.skip 2)
      if c.peek == '>' then pure (Token.tag none text, c.next) else malformed
    else if endsWord (c.ahead 1) then pure (Token.tag none "!", c.next)
    else
      let word := (c.rest.drop 1).takeWhile (!endsItem ·)
      if word.contains '!' then do
        let (handle, c) ← readHandle c
        let (text, c) ← readTagText c
        pure (Token.tag (some handle) text, c)
      else do
        let (text, c) ← readTagText c.next
        pure (Token.tag (some "!") text, c)
  if endsItem c.peek then pure (token, c) else malformed

/-- The most digits that a version number may have. -/
def mostVersionDigits : Nat := 4300

/-- The digits of a version number. -/
def readVersionPart (c : Cursor) : Except Failure (Nat × Cursor) :=
  let (digits, c) := c.take Char.isDigit
  if digits.isEmpty then malformed
  else if mostVersionDigits < digits.length then .error .illFormed
  else .ok (decimal digits, c)

/-- A directive up to the end of its line. -/
def readDirective (c : Cursor) : Except Failure (Token × Cursor) := do
  let (name, c) := c.next.take isNameChar
  if name.isEmpty || !endsItem c.peek then malformed
  else
    let (directive, c) ←
      if name == "YAML".toList then do
        let (major, c) ← readVersionPart c.skipSpaces
        if c.peek != '.' then malformed
        else do
          let (_, c) ← readVersionPart c.next
          if endsItem c.peek then pure (Directive.version major, c) else malformed
      else if name == "TAG".toList then do
        let (handle, c) ← readHandle c.skipSpaces
        if c.peek != ' ' then malformed
        else do
          let (text, c) ← readTagText c.skipSpaces
          if endsItem c.peek then pure (Directive.handle handle text, c) else malformed
      else pure (Directive.other, c.skipWhile (!endsLine ·))
    let c ← c.skipIgnoredLine
    pure (.directive directive, c)

end Clearance.Yaml
