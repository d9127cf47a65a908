import Clearance.Value.Equality
import Clearance.Yaml.Node
import Clearance.Yaml.ScalarValue
import Clearance.Yaml.Token.Scan

/-! The value that a YAML text holds.

Mappings keep the order of first keys, and the last of several equal keys wins.
Under the merge key a mapping takes over the entries of others; its own entries
win over them.

A document is read from the outside in: all scalars at one depth are read before
the collections beside them are opened, so that of several faults the outermost
shows. Collections are put together afterwards. Those that hold themselves form
a knot. -/
namespace Clearance.Yaml

/-- Types whose values are written as a text. -/
def Tag.isScalar : Tag → Bool
  | null | bool | int | float | binary | timestamp | text => true
  | _ => false

/-- Types whose values are collections. They cannot be keys. -/
def Tag.isCollection : Tag → Bool
  | sequence | mapping | set | orderedMap | pairs => true
  | _ => false

namespace Document

/-! ## Opening a document -/

/-- A document while it is read. -/
structure Opening where
  nodes : Array Node
  /-- The values of the scalars that are read. -/
  values : Array (Option Value)
  /-- Which nodes have been met. -/
  met : Array Bool
  /-- The collections that are still to be opened, the last one first. -/
  waiting : List Nat := []

/-- A step of opening a document. -/
abbrev Open :=
  StateT Opening (Except Failure)

/-- The node with a number. -/
def nodeAt (number : Nat) : Open Node := do
  match (← get).nodes[number]? with
  | some n => pure n
  | none => malformed

/-- The entries of a mapping. -/
def entriesAt (number : Nat) : Open (List (Nat × Nat)) := do
  match (← nodeAt number).content with
  | .mapping entries => pure entries
  | _ => malformed

/-- Puts a node in the place of another. -/
def replace (number : Nat) (n : Node) : Open Unit :=
  modify fun o => { o with nodes := o.nodes.setIfInBounds number n }

/-- The value under the key of the default value. -/
def defaultOf : List (Nat × Nat) → Open Nat
  | [] => malformed
  | (k, v) :: rest => do
    if (← nodeAt k).tag = .default then pure v else defaultOf rest

/-- The text of a node: that of a scalar, or of the default value of a mapping. -/
def textOf : Nat → Nat → Open (List Char)
  | 0, _ => throw .endless
  | fuel + 1, number => do
    match (← nodeAt number).content with
    | .scalar text => pure text
    | .sequence _ => malformed
    | .mapping entries => textOf fuel (← defaultOf entries)

/-- Reads a node when it is met for the first time: a scalar at once, a
collection when its turn comes. -/
def visit (number : Nat) : Open Unit := do
  let o ← get
  let met := (o.met[number]?).getD true
  if !met then
    set { o with met := o.met.setIfInBounds number true }
    let n ← nodeAt number
    if n.tag.isCollection then modify fun o => { o with waiting := number :: o.waiting }
    else
      if !n.tag.isScalar then malformed
      let text ← textOf (o.nodes.size + 1) number
      let isOwn := n.content matches .scalar _
      if n.tag = .timestamp && !isOwn then throw .mismatch
      let v ← readScalar number n.tag text
      modify fun o => { o with values := o.values.setIfInBounds number (some v) }

/-- The place of the first merge key among entries. A key of the default value in
front of it becomes a text. -/
def mergePlace? : List (Nat × Nat) → Open (Option Nat)
  | [] => pure none
  | (k, _) :: rest => do
    let key ← nodeAt k
    if key.tag = .merge then pure (some 0)
    else
      if key.tag = .default then replace k { key with tag := .text }
      return (← mergePlace? rest).map (· + 1)

/-- Gives a mapping other entries. -/
def setEntries (number : Nat) (entries : List (Nat × Nat)) : Open Unit := do
  replace number { ← nodeAt number with content := .mapping entries }

mutual

/-- Takes the entries of other mappings over into a mapping, those in front of its
own. A merge key is gone before the mappings behind it are looked at, so that a
mapping may be merged into itself. -/
def merge : Nat → Nat → Open Unit
  | 0, _ => malformed
  | fuel + 1, number => mergeFrom fuel number 0 []

/-- Goes on with merging at a place, when some entries are already taken over. -/
def mergeFrom : Nat → Nat → Nat → List (Nat × Nat) → Open Unit
  | 0, _, _, _ => malformed
  | fuel + 1, number, place, taken => do
    match ← mergePlace? ((← entriesAt number).drop place) with
    | none => setEntries number (taken ++ (← entriesAt number))
    | some distance =>
      let entries ← entriesAt number
      let place := place + distance
      setEntries number (entries.eraseIdx place)
      let (_, v) := entries.getD place (number, number)
      let more ← match (← nodeAt v).content with
        | .scalar _ => malformed
        | .mapping _ => mergedEntries fuel v
        | .sequence items => do
          let lists ← items.mapM (mergedEntries fuel)
          pure lists.reverse.flatten
      mergeFrom fuel number place (taken ++ more)

/-- The entries of a mapping after merging. -/
def mergedEntries : Nat → Nat → Open (List (Nat × Nat))
  | 0, _ => malformed
  | fuel + 1, number => do
    merge fuel number
    entriesAt number

end

/-- More than the steps that merging can be deep, for every merge key is met once. -/
def mergeFuel : Open Nat := do
  let size (n : Node) : Nat :=
    match n.content with
    | .mapping entries => entries.length
    | _ => 0
  return 4 * ((← get).nodes.foldl (fun sum n => sum + size n) 0) + 4

/-- Visits the keys and values of a mapping. -/
def visitEntries (entries : List (Nat × Nat)) : Open Unit :=
  entries.forM fun (k, v) => do
    visit k
    if (← nodeAt k).tag.isCollection then malformed
    visit v

/-- Visits the single entry of a mapping that is a pair. -/
def visitPair (number : Nat) : Open Unit := do
  match ← entriesAt number with
  | [(k, v)] =>
    visit k
    visit v
  | _ => malformed

/-- Visits what a collection holds. -/
def openNode (number : Nat) : Open Unit := do
  let n ← nodeAt number
  match n.tag, n.content with
  | .sequence, .sequence items => items.forM visit
  | .orderedMap, .sequence items => items.forM visitPair
  | .pairs, .sequence items => items.forM visitPair
  | .mapping, .mapping _ | .set, .mapping _ => do
    merge (← mergeFuel) number
    visitEntries (← entriesAt number)
  | _, _ => malformed

/-- Opens collections in the order in which they are met. -/
def openAll : Nat → Open Unit
  | 0 => pure ()
  | fuel + 1 => do
    let o ← get
    if !o.waiting.isEmpty then
      set { o with waiting := [] }
      o.waiting.reverse.forM openNode
      openAll fuel

/-- A document with all of its scalars read. -/
def opened (d : Document) : Except Failure Opening := do
  let start : Opening :=
    { nodes := d.nodes
      values := Array.replicate d.nodes.size none
      met := Array.replicate d.nodes.size false }
  let read : Open Unit := do
    visit d.root
    openAll (d.nodes.size + 1)
  return (← read.run start).2

/-! ## Putting collections together -/

/-- A mapping with entries put one after the other. -/
def ofEntries (entries : List (Value × Value)) : List (Value × Value) :=
  entries.foldl (fun m e => Value.put e.1 e.2 m) []

/-- The collection that a node is, when all values that it holds are known. -/
def assemble? (nodes : Array Node) (value : Nat → Option Value) (n : Node) : Option Value :=
  let entry (e : Nat × Nat) : Option (Value × Value) := do
    return (← value e.1, ← value e.2)
  let pair (number : Nat) : Option Value :=
    match (nodes[number]?).map Node.content with
    | some (.mapping [(k, v)]) => do return .tuple [← value k, ← value v]
    | _ => none
  match n.tag, n.content with
  | .sequence, .sequence items => .list <$> items.mapM value
  | .mapping, .mapping entries => (fun es => .dict (ofEntries es)) <$> entries.mapM entry
  | .set, .mapping entries =>
    (fun keys => .set (Value.distinct keys)) <$> entries.mapM fun e => value e.1
  | .orderedMap, .sequence items => .list <$> items.mapM pair
  | .pairs, .sequence items => .list <$> items.mapM pair
  | _, _ => none

/-- The value of a node that is known. -/
def known (values : Array (Option Value)) (number : Nat) : Option Value :=
  (values[number]?).join

/-- The values after every collection is put together that can be, the last node first. -/
def assembleOnce (o : Opening) (values : Array (Option Value)) : Array (Option Value) :=
  (List.range o.nodes.size).reverse.foldl (fun values number =>
    match known values number, o.nodes[number]? with
    | none, some n => values.setIfInBounds number (assemble? o.nodes (known values) n)
    | _, _ => values) values

/-- The values after collections are put together until no more can be. -/
def assembleAll (o : Opening) : Nat → Array (Option Value) → Array (Option Value)
  | 0, values => values
  | fuel + 1, values =>
    let next := assembleOnce o values
    let count (vs : Array (Option Value)) : Nat := vs.countP Option.isSome
    if count next = count values then values else assembleAll o fuel next

/-- The value of a document: that of its root, which is part of a knot when it
leads to a collection that holds itself. -/
def toValue (d : Document) : Except Failure Value := do
  let o ← d.opened
  let values := assembleAll o (o.nodes.size + 1) o.values
  match known values d.root with
  | some v => pure v
  | none =>
    let tied := (List.range o.nodes.size).filter fun number =>
      (o.met[number]?).getD false && (known values number).isNone
    let inside (number : Nat) : Option Value :=
      (known values number).or ((tied.idxOf? number).map Value.back)
    let members := tied.map fun number =>
      ((o.nodes[number]?).bind (assemble? o.nodes inside)).getD .null
    pure (.knot 0 members ((tied.idxOf? d.root).getD 0))

end Document

/-- The value of the only document of a text; null when there is none. -/
def read (text : List Char) : Except Failure Value := do
  match ← Document.ofTokens? (TokenStream.ofText text) with
  | none => pure .null
  | some d => d.toValue

end Clearance.Yaml
