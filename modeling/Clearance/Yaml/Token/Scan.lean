import Clearance.Yaml.Token.Scalar

/-! The tokens of a YAML text.

Block collections are found by indentation: a deeper column opens one, a
column further out closes those inside it. Whether a scalar is a key shows only
at the colon behind it, so places where a key could start are remembered, one
for each depth of flow collections. Such a key stands on one line and is at most
1024 characters long. -/
namespace Clearance.Yaml

/-- A place where a key could start. -/
structure PossibleKey where
  /-- How many tokens stand in front of it. -/
  position : Nat
  /-- Whether anything but a key would be an error here. -/
  required : Bool
  index : Nat
  line : Nat
  column : Nat

/-- Tokens read so far and what decides about the next one. -/
structure Scanner where
  cursor : Cursor
  tokens : Array Token := #[]
  /-- How many flow collections are open. -/
  flow : Nat := 0
  /-- The column of the innermost block collection, or `-1`. -/
  indent : Int := -1
  /-- The columns of the block collections around it. -/
  indents : List Int := []
  /-- Whether a key can start here without an indicator. -/
  keyAllowed : Bool := true
  /-- The places where a key could start, by depth. -/
  keys : List (Nat × PossibleKey) := []

namespace Scanner

/-- The scanner with one more token. -/
def push (s : Scanner) (t : Token) : Scanner :=
  { s with tokens := s.tokens.push t }

/-- The scanner behind some characters. -/
def advance (s : Scanner) (n : Nat) : Scanner :=
  { s with cursor := s.cursor.skip n }

/-- Whether the scanner is in block style. -/
def inBlock (s : Scanner) : Bool :=
  s.flow == 0

/-- The column as an indentation. -/
def column (s : Scanner) : Int :=
  s.cursor.column

/-- The cursor in front of the next token, behind blanks, comments and breaks.
After a break in block style a key can start. -/
def skipToToken (s : Scanner) : Scanner :=
  let start := s.cursor
  let start := if start.index = 0 && start.peek == '\ufeff' then start.next else start
  let rec go : Nat → Cursor → Bool → Cursor × Bool
    | 0, c, broke => (c, broke)
    | fuel + 1, c, broke =>
      let c := c.skipSpaces.skipComment
      if isBreak c.peek then go fuel c.readBreak.2 true else (c, broke)
  let (c, broke) := go start.fuel start false
  { s with cursor := c, keyAllowed := s.keyAllowed || (broke && s.inBlock) }

/-- Whether a key can no longer have started at a place. -/
def isStale (s : Scanner) (k : PossibleKey) : Bool :=
  k.line != s.cursor.line || s.cursor.index - k.index > 1024

/-- Forgets places where a key can start no longer. -/
def dropStaleKeys (s : Scanner) : Except Failure Scanner :=
  if s.keys.any fun e => s.isStale e.2 && e.2.required then malformed
  else .ok { s with keys := s.keys.filter fun e => !s.isStale e.2 }

/-- Forgets the place where a key could start at this depth. -/
def dropKey (s : Scanner) : Except Failure Scanner :=
  match s.keys.lookup s.flow with
  | none => .ok s
  | some k =>
    if k.required then malformed
    else .ok { s with keys := s.keys.filter fun e => e.1 != s.flow }

/-- Remembers that a key could start here. -/
def markKey (s : Scanner) : Except Failure Scanner :=
  if s.keyAllowed then do
    let required := s.inBlock && s.indent == s.column
    let s ← s.dropKey
    let c := s.cursor
    let k : PossibleKey := ⟨s.tokens.size, required, c.index, c.line, c.column⟩
    pure { s with keys := (s.flow, k) :: s.keys }
  else .ok s

/-- Closes the block collections that stand further in than a column. -/
def unwind (column : Int) (s : Scanner) : Scanner :=
  if s.inBlock then
    let rec go : Int → List Int → Scanner → Scanner
      | indent, [], s => { s with indent := indent, indents := [] }
      | indent, outer :: rest, s =>
        if column < indent then go outer rest (s.push .blockEnd)
        else { s with indent := indent, indents := outer :: rest }
    go s.indent s.indents s
  else s

/-- Opens a block collection at a column that stands further in. -/
def openBlock (s : Scanner) (column : Int) (t : Token) (position : Nat) : Scanner :=
  if s.indent < column then
    { s with
      indent := column
      indents := s.indent :: s.indents
      tokens := s.tokens.insertIdxIfInBounds position t }
  else s

/-- The end of the text. -/
def finish (s : Scanner) : Except Failure Scanner := do
  let s ← (s.unwind (-1)).dropKey
  pure { s.push .streamEnd with keyAllowed := false, keys := [] }

/-- A directive. -/
def addDirective (s : Scanner) : Except Failure Scanner := do
  let s ← (s.unwind (-1)).dropKey
  let (t, c) ← readDirective s.cursor
  pure { s.push t with keyAllowed := false, cursor := c }

/-- The marker of a document's start or end. -/
def addMarker (s : Scanner) (t : Token) : Except Failure Scanner := do
  let s ← (s.unwind (-1)).dropKey
  pure { (s.push t).advance 3 with keyAllowed := false }

/-- The start of a flow collection. -/
def openFlow (s : Scanner) (t : Token) : Except Failure Scanner := do
  let s ← s.markKey
  pure { (s.push t).advance 1 with flow := s.flow + 1, keyAllowed := true }

/-- The end of a flow collection. -/
def closeFlow (s : Scanner) (t : Token) : Except Failure Scanner := do
  let s ← s.dropKey
  if s.flow = 0 then malformed
  else pure { (s.push t).advance 1 with flow := s.flow - 1, keyAllowed := false }

/-- A comma. -/
def addFlowEntry (s : Scanner) : Except Failure Scanner := do
  let s ← s.dropKey
  pure { (s.push .flowEntry).advance 1 with keyAllowed := true }

/-- The hyphen of an entry in block style. -/
def addBlockEntry (s : Scanner) : Except Failure Scanner := do
  if s.inBlock && !s.keyAllowed then malformed
  else
    let s := if s.inBlock then s.openBlock s.column .blockSequence s.tokens.size else s
    let s ← s.dropKey
    pure { (s.push .blockEntry).advance 1 with keyAllowed := true }

/-- The question mark of a key. -/
def addKey (s : Scanner) : Except Failure Scanner := do
  if s.inBlock && !s.keyAllowed then malformed
  else
    let s := if s.inBlock then s.openBlock s.column .blockMapping s.tokens.size else s
    let s ← s.dropKey
    pure { (s.push .key).advance 1 with keyAllowed := s.inBlock }

/-- The colon of a value. What stands in front of it becomes its key when a key could
start there. -/
def addValue (s : Scanner) : Except Failure Scanner := do
  match s.keys.lookup s.flow with
  | some k =>
    let s := { s with
      keys := s.keys.filter fun e => e.1 != s.flow
      tokens := s.tokens.insertIdxIfInBounds k.position .key }
    let s := if s.inBlock then s.openBlock k.column .blockMapping k.position else s
    pure { (s.push .value).advance 1 with keyAllowed := false }
  | none =>
    if s.inBlock && !s.keyAllowed then malformed
    else
      let s := if s.inBlock then s.openBlock s.column .blockMapping s.tokens.size else s
      let s ← s.dropKey
      pure { (s.push .value).advance 1 with keyAllowed := s.inBlock }

/-- A token that can be a key or start one. -/
def addContent (s : Scanner) (read : Cursor → Except Failure (Token × Cursor)) :
    Except Failure Scanner := do
  let s ← s.markKey
  let (t, c) ← read s.cursor
  pure { s.push t with keyAllowed := false, cursor := c }

/-- A plain scalar. Behind a line break a key can start. -/
def addPlain (s : Scanner) : Except Failure Scanner := do
  let s ← s.markKey
  let scan := readPlainWords (!s.inBlock) (s.indent + 1) s.cursor.fuel [] s.cursor
  pure { s.push (.scalar scan.text true) with
    keyAllowed := scan.brokeLine.getD false, cursor := scan.cursor }

/-- A block scalar. A key can start behind it. -/
def addBlockScalar (s : Scanner) (folded : Bool) : Except Failure Scanner := do
  let s ← s.dropKey
  let (t, c) ← readBlock folded s.indent s.cursor
  pure { s.push t with keyAllowed := true, cursor := c }

/-- Whether a plain scalar can start here. -/
def atPlain (s : Scanner) : Bool :=
  let x := s.cursor.peek
  let indicators := ['-', '?', ':', ',', '[', ']', '\x7b', '\x7d', '#', '&', '*', '!', '|', '>',
    '\x27', '"', '%', '@', '\x60']
  !(endsWord x || indicators.contains x) ||
    (!endsWord (s.cursor.ahead 1) && (x == '-' || (s.inBlock && (x == '?' || x == ':'))))

/-- Reads the token that starts here. -/
def readToken (s : Scanner) : Except Failure Scanner := do
  let c := s.cursor
  let x := c.peek
  let wordEnds := endsWord (c.ahead 1)
  if x == endMark then s.finish
  else if x == '%' && c.column = 0 then s.addDirective
  else if c.column = 0 && c.atDocumentMarker then
    s.addMarker (if x == '-' then .documentStart else .documentEnd)
  else if x == '[' then s.openFlow .flowSequence
  else if x == '\x7b' then s.openFlow .flowMapping
  else if x == ']' then s.closeFlow .flowSequenceEnd
  else if x == '\x7d' then s.closeFlow .flowMappingEnd
  else if x == ',' then s.addFlowEntry
  else if x == '-' && wordEnds then s.addBlockEntry
  else if x == '?' && (!s.inBlock || wordEnds) then s.addKey
  else if x == ':' && (!s.inBlock || wordEnds) then s.addValue
  else if x == '*' then s.addContent fun c => do
    let (name, c) ← readAnchorName c
    pure (.alias name, c)
  else if x == '&' then s.addContent fun c => do
    let (name, c) ← readAnchorName c
    pure (.anchor name, c)
  else if x == '!' then s.addContent readTag
  else if x == '|' && s.inBlock then s.addBlockScalar false
  else if x == '>' && s.inBlock then s.addBlockScalar true
  else if x == '\x27' then s.addContent (readQuoted false)
  else if x == '"' then s.addContent (readQuoted true)
  else if s.atPlain then s.addPlain
  else malformed

/-- How many tokens can be told without reading on: those in front of the first
place where a key could still start. -/
def settled (s : Scanner) : Nat :=
  (s.keys.filter fun e => !s.isStale e.2).foldl (fun n e => min n e.2.position) s.tokens.size

/-- The tokens that can be told when reading on fails. -/
def stopped (s : Scanner) (stop : Failure) : TokenStream :=
  ⟨s.tokens.toList.take s.settled, stop⟩

/-- Reads the next token and tells whether it is the last one. Closed to unfolding, so that a
round of `run` can be taken without working out what the round reads. -/
@[irreducible]
def step (s : Scanner) : Except Failure (Bool × Scanner) := do
  let s ← s.skipToToken.dropStaleKeys
  let next ← (s.unwind s.column).readToken
  pure (s.cursor.peek == endMark, next)

/-- Reads tokens to the end, or to the first place that cannot be read. Every
round but the last consumes a character. -/
def run : Nat → Scanner → TokenStream
  | 0, s => s.stopped (.rejected .unreadableYaml)
  | fuel + 1, s =>
    match s.step with
    | .error stop => s.stopped stop
    | .ok (true, next) => ⟨next.tokens.toList, .rejected .unreadableYaml⟩
    | .ok (false, next) => run fuel next

end Scanner

/-- A character that may stand in a YAML text. -/
def isAllowed (c : Char) : Bool :=
  let n := c.toNat
  n == 0x09 || n == 0x0a || n == 0x0d || (0x20 ≤ n && n ≤ 0x7e) || n == 0x85 ||
    (0xa0 ≤ n && n ≤ 0xd7ff) || (0xe000 ≤ n && n ≤ 0xfffd) || 0x10000 ≤ n

/-- The tokens of a text. -/
def TokenStream.ofText (text : List Char) : TokenStream :=
  if text.all isAllowed then
    let c : Cursor := { rest := text }
    Scanner.run c.fuel { cursor := c }
  else ⟨[], .rejected .unreadableYaml⟩

end Clearance.Yaml
