import Clearance.Yaml.Tag
import Clearance.Yaml.Token

/-! The nodes of a YAML document, read from its tokens.

An alias stands for the node that its anchor marks. Nodes refer to each other by
number, so that a node which several aliases stand for is one node, and a
collection can hold itself. A node may not be anchored twice under one name, and
an alias must come behind its anchor. Collections may stand inside each other up
to a fixed depth. -/
namespace Clearance.Yaml

/-- What a node consists of, the nodes inside it by their numbers. -/
inductive Content where
  | scalar (text : List Char)
  | sequence (items : List Nat)
  | mapping (entries : List (Nat × Nat))
deriving Inhabited

/-- A node with its type. -/
structure Node where
  tag : Tag
  content : Content

/-- The nodes of a document by number, and the one that holds all others. -/
structure Document where
  nodes : Array Node
  root : Nat

namespace Node

/-- What is still to be read of a document and what is known from the part before. -/
structure Reader where
  tokens : List Token
  /-- The failure behind the last token. -/
  stop : Failure
  /-- What tag handles stand for. -/
  handles : List (String × String)
  /-- The nodes read so far. -/
  nodes : Array Node := #[]
  anchors : List (String × Nat) := []
  /-- How many collections are open. -/
  depth : Nat := 0

/-- A step of reading. -/
abbrev Reading :=
  StateT Reader (Except Failure)

/-- The next token, which stays. -/
def peek : Reading Token := do
  let r ← get
  match r.tokens with
  | t :: _ => pure t
  | [] => throw r.stop

/-- Passes over the next token. -/
def drop : Reading Unit :=
  modify fun r => { r with tokens := r.tokens.tail }

/-- Whether the next token is one of several. -/
def atOneOf (tokens : List Token) : Reading Bool := do
  pure (tokens.contains (← peek))

/-- Passes over the next token if it is the given one. -/
def accept (t : Token) : Reading Bool := do
  if (← peek) = t then
    drop
    pure true
  else pure false

/-- Passes over the next token, which has to be the given one. -/
def expect (t : Token) : Reading Unit := do
  if !(← accept t) then malformed

/-- Adds a node and tells its number. -/
def add (n : Node) : Reading Nat := do
  let r ← get
  set { r with nodes := r.nodes.push n }
  pure r.nodes.size

/-- Puts a node in the place of another. -/
def replace (number : Nat) (n : Node) : Reading Unit :=
  modify fun r => { r with nodes := r.nodes.setIfInBounds number n }

/-- The absent node. -/
def empty : Reading Nat :=
  add ⟨.null, .scalar []⟩

/-- The full text of a tag. -/
def tagText : Option String → String → Reading String
  | none, suffix => pure suffix
  | some handle, suffix => do
    match (← get).handles.lookup handle with
    | some text => pure (text ++ suffix)
    | none => malformed

/-- The anchor and the tag in front of a node, in either order. -/
def readProperties : Reading (Option String × Option String) := do
  match ← peek with
  | .anchor name =>
    drop
    match ← peek with
    | .tag handle suffix =>
      drop
      pure (some name, some (← tagText handle suffix))
    | _ => pure (some name, none)
  | .tag handle suffix =>
    drop
    match ← peek with
    | .anchor name =>
      drop
      pure (some name, some (← tagText handle suffix))
    | _ => pure (none, some (← tagText handle suffix))
  | _ => pure (none, none)

/-- Notes what an anchor marks. -/
def mark (anchor : Option String) (number : Nat) : Reading Unit :=
  match anchor with
  | none => pure ()
  | some name => modify fun r => { r with anchors := (name, number) :: r.anchors }

/-- Refuses an anchor whose name is taken. -/
def checkAnchor (anchor : Option String) : Reading Unit := do
  match anchor with
  | none => pure ()
  | some name => if ((← get).anchors.lookup name).isSome then malformed

/-- The type that a tag gives, or the one that the kind of node has by itself. -/
def typeOf (tag : Option String) (own : Tag) : Tag :=
  match tag with
  | none => own
  | some "!" => own
  | some text => Tag.ofText text

/-- The type of a scalar: by its tag, by its text when it is plain, else text. -/
def scalarType (tag : Option String) (isPlain : Bool) (text : List Char) : Tag :=
  match tag with
  | some "!" => Tag.ofPlain text
  | none => if isPlain then Tag.ofPlain text else .text
  | some name => Tag.ofText name

/-- How deep collections may stand inside each other. This is where the interpreter's limit
of 1000 nested calls is reached: reading a collection takes two calls a level, and the calls
around the outermost one take the rest. -/
def maxDepth : Nat := 488

/-- Reads what stands inside a collection. -/
def inside {α : Type} (read : Reading α) : Reading α := do
  modify fun r => { r with depth := r.depth + 1 }
  if maxDepth < (← get).depth then throw .endless
  let found ← read
  modify fun r => { r with depth := r.depth - 1 }
  pure found

/-- A collection whose anchor is known from its start. -/
def collect (anchor : Option String) (tag : Tag) (read : Reading Content) : Reading Nat := do
  let number ← add ⟨tag, .sequence []⟩
  mark anchor number
  replace number ⟨tag, ← inside read⟩
  pure number

/-- The node that an alias stands for. -/
def resolveAlias (name : String) : Reading Nat := do
  match (← get).anchors.lookup name with
  | some number => pure number
  | none => malformed

mutual

/-- A node. Block collections may start only in block style, and a sequence
without indentation of its own only as a key or value in block style. -/
def read (inBlock indentless : Bool) : Nat → Reading Nat
  | 0 => malformed
  | fuel + 1 => do
    match ← peek with
    | .alias name =>
      drop
      resolveAlias name
    | _ =>
      let (anchor, tag) ← readProperties
      let next ← peek
      checkAnchor anchor
      let items (read : Reading (List Nat)) : Reading Nat :=
        collect anchor (typeOf tag .sequence) (.sequence <$> read)
      let entries (read : Reading (List (Nat × Nat))) : Reading Nat :=
        collect anchor (typeOf tag .mapping) (.mapping <$> read)
      let scalar (isPlain : Bool) (text : List Char) : Reading Nat := do
        let number ← add ⟨scalarType tag isPlain text, .scalar text⟩
        mark anchor number
        pure number
      match next with
      | .scalar text isPlain =>
        drop
        scalar isPlain text
      | .flowSequence =>
        drop
        items (readFlowItems true fuel)
      | .flowMapping =>
        drop
        entries (readFlowEntries true fuel)
      | .blockEntry =>
        if indentless then items (readIndentless fuel)
        else if anchor.isSome || tag.isSome then scalar true []
        else malformed
      | .blockSequence =>
        if inBlock then
          drop
          items (readBlockItems fuel)
        else if anchor.isSome || tag.isSome then scalar true []
        else malformed
      | .blockMapping =>
        if inBlock then
          drop
          entries (readBlockEntries fuel)
        else if anchor.isSome || tag.isSome then scalar true []
        else malformed
      | _ => if anchor.isSome || tag.isSome then scalar true [] else malformed

/-- A node, or the absent one when a token that ends it follows. -/
def readUnless (ends : List Token) (inBlock indentless : Bool) : Nat → Reading Nat
  | 0 => malformed
  | fuel + 1 => do
    if ← atOneOf ends then empty else read inBlock indentless fuel

/-- The value behind a colon, or the absent node. -/
def readValue (ends : List Token) (inBlock indentless : Bool) : Nat → Reading Nat
  | 0 => malformed
  | fuel + 1 => do
    if ← accept .value then readUnless ends inBlock indentless fuel else empty

/-- The items of a block sequence. -/
def readBlockItems : Nat → Reading (List Nat)
  | 0 => malformed
  | fuel + 1 => do
    if ← accept .blockEntry then
      let item ← readUnless [.blockEntry, .blockEnd] true false fuel
      return item :: (← readBlockItems fuel)
    else
      expect .blockEnd
      pure []

/-- The items of a sequence that stands at the indentation of its key. -/
def readIndentless : Nat → Reading (List Nat)
  | 0 => malformed
  | fuel + 1 => do
    if ← accept .blockEntry then
      let item ← readUnless [.blockEntry, .key, .value, .blockEnd] true false fuel
      return item :: (← readIndentless fuel)
    else pure []

/-- The entries of a block mapping. -/
def readBlockEntries : Nat → Reading (List (Nat × Nat))
  | 0 => malformed
  | fuel + 1 => do
    if ← accept .key then
      let key ← readUnless [.key, .value, .blockEnd] true true fuel
      let value ← readValue [.key, .value, .blockEnd] true true fuel
      return (key, value) :: (← readBlockEntries fuel)
    else
      expect .blockEnd
      pure []

/-- The items of a flow sequence. A key among them starts a mapping of one entry. -/
def readFlowItems (first : Bool) : Nat → Reading (List Nat)
  | 0 => malformed
  | fuel + 1 => do
    if ← accept .flowSequenceEnd then pure []
    else
      if !first then expect .flowEntry
      if ← accept .key then
        let pair ← collect none .mapping (do
          let key ← readUnless [.value, .flowEntry, .flowSequenceEnd] false false fuel
          let value ← readValue [.flowEntry, .flowSequenceEnd] false false fuel
          pure (.mapping [(key, value)]))
        return pair :: (← readFlowItems false fuel)
      else if ← accept .flowSequenceEnd then pure []
      else
        let item ← read false false fuel
        return item :: (← readFlowItems false fuel)

/-- The entries of a flow mapping. -/
def readFlowEntries (first : Bool) : Nat → Reading (List (Nat × Nat))
  | 0 => malformed
  | fuel + 1 => do
    if ← accept .flowMappingEnd then pure []
    else
      if !first then expect .flowEntry
      if ← accept .key then
        let key ← readUnless [.value, .flowEntry, .flowMappingEnd] false false fuel
        let value ← readValue [.flowEntry, .flowMappingEnd] false false fuel
        return (key, value) :: (← readFlowEntries false fuel)
      else if ← accept .flowMappingEnd then pure []
      else
        let key ← read false false fuel
        let value ← empty
        return (key, value) :: (← readFlowEntries false fuel)

end

/-- What tag handles stand for when no directive says otherwise. -/
def defaultHandles : List (String × String) :=
  [("!", "!"), ("!!", Tag.namespaceText)]

/-- Directives in front of a document: at most one version, which has to be
the first major one, and at most one meaning for each tag handle. -/
def readDirectives (versioned : Bool) (handles : List (String × String)) :
    List Token → Except Failure (List (String × String))
  | .directive d :: rest =>
    match d with
    | .version major =>
      if versioned || major != 1 then malformed else readDirectives true handles rest
    | .handle handle text =>
      if (handles.lookup handle).isSome then malformed
      else readDirectives versioned ((handle, text) :: handles) rest
    | .other => readDirectives versioned handles rest
  | _ => .ok (handles ++ defaultHandles)

/-- The content of a document, which may be absent. -/
def readContent (fuel : Nat) : Reading Nat := do
  match ← peek with
  | .directive _ => empty
  | .documentStart => empty
  | .documentEnd => empty
  | .streamEnd => empty
  | _ => read true false fuel

/-- Passes over document ends. -/
def skipEnds (tokens : List Token) : List Token :=
  tokens.dropWhile (· = .documentEnd)

/-- Whether a token is a directive. -/
def isDirective : Token → Bool
  | .directive _ => true
  | _ => false

/-- The first document of a text, if there is one. -/
def readFirst (fuel : Nat) : Reading (Option Nat) := do
  match ← peek with
  | .streamEnd => pure none
  | t =>
    if isDirective t || t = .documentStart then
      let r ← get
      let handles ← readDirectives false [] r.tokens
      set { r with tokens := r.tokens.dropWhile isDirective, handles }
      expect .documentStart
      some <$> readContent fuel
    else some <$> read true false fuel

/-- The only document of a text, if there is one. -/
def readOnly (fuel : Nat) : Reading (Option Document) := do
  match ← readFirst fuel with
  | none => pure none
  | some root =>
    modify fun r => { r with tokens := skipEnds r.tokens }
    expect .streamEnd
    return some ⟨(← get).nodes, root⟩

end Node

/-- The document that a stream of tokens holds, if there is one. No more than one may follow. -/
def Document.ofTokens? (s : TokenStream) : Except Failure (Option Document) :=
  let r : Node.Reader := { tokens := s.tokens, stop := s.stop, handles := Node.defaultHandles }
  (Node.readOnly (4 * s.tokens.length + 4)).run' r

end Clearance.Yaml
