import Clearance.Proofs.Yaml.Token
import Clearance.Yaml.Node

/-! What can be wrong with the nodes of YAML.

A reader of nodes fails with what its tokens stop with, with tokens that make no node, or with
collections that stand too deep inside each other. -/
namespace Clearance.Yaml

/-- The failures of a reader of nodes. -/
inductive NodeFault : Failure → Prop
  /-- What is wrong with the tokens. -/
  | token {f : Failure} (h : TokenFault f) : NodeFault f
  /-- Collections stand too deep inside each other. -/
  | endless : NodeFault .endless

theorem NodeFault.unreadable : NodeFault (.rejected .unreadableYaml) :=
  .token .unreadable

namespace Node

/-- A step of reading fails in those ways alone, when its tokens stop with a fault of the text. -/
abbrev Faulty {α : Type} (m : Reading α) : Prop :=
  Preserves (fun r => TokenFault r.stop) NodeFault m

variable {α : Type}

theorem faulty_malformed : Faulty (liftM (malformed : Except Failure α) : Reading α) :=
  preserves_lift (fails_malformed .unreadable)

/-! ## Tokens -/

theorem faulty_peek : Faulty peek := by
  refine .get_bind fun r hr => ?_
  split
  · exact preserves_pure
  · exact preserves_throw (.token hr)

theorem faulty_drop : Faulty drop :=
  preserves_modify fun _ h => h

theorem faulty_atOneOf (tokens : List Token) : Faulty (atOneOf tokens) :=
  faulty_peek.bind fun _ => preserves_pure

theorem faulty_accept (t : Token) : Faulty (accept t) :=
  faulty_peek.bind fun _ => .ite (faulty_drop.bind fun _ => preserves_pure) preserves_pure

theorem faulty_expect (t : Token) : Faulty (expect t) :=
  (faulty_accept t).bind fun _ => .ite faulty_malformed preserves_pure

/-! ## Nodes -/

theorem faulty_add (n : Node) : Faulty (add n) :=
  .get_bind fun _ hr => .set_bind hr preserves_pure

theorem faulty_replace (number : Nat) (n : Node) : Faulty (replace number n) :=
  preserves_modify fun _ h => h

theorem faulty_empty : Faulty empty :=
  faulty_add _

theorem faulty_tagText (handle : Option String) (suffix : String) :
    Faulty (tagText handle suffix) := by
  cases handle with
  | none => exact preserves_pure
  | some handle =>
    refine .get_bind fun r _ => ?_
    split
    · exact preserves_pure
    · exact faulty_malformed

theorem faulty_readProperties : Faulty readProperties := by
  refine faulty_peek.bind fun _ => ?_
  split
  · refine faulty_drop.bind fun _ => faulty_peek.bind fun _ => ?_
    split
    · exact faulty_drop.bind fun _ => (faulty_tagText _ _).bind fun _ => preserves_pure
    · exact preserves_pure
  · refine faulty_drop.bind fun _ => faulty_peek.bind fun _ => ?_
    split
    · exact faulty_drop.bind fun _ => (faulty_tagText _ _).bind fun _ => preserves_pure
    · exact (faulty_tagText _ _).bind fun _ => preserves_pure
  · exact preserves_pure

theorem faulty_mark (anchor : Option String) (number : Nat) : Faulty (mark anchor number) := by
  cases anchor with
  | none => exact preserves_pure
  | some name => exact preserves_modify fun _ h => h

theorem faulty_checkAnchor (anchor : Option String) : Faulty (checkAnchor anchor) := by
  cases anchor with
  | none => exact preserves_pure
  | some name => exact .get_bind fun _ _ => .ite faulty_malformed preserves_pure

theorem faulty_resolveAlias (name : String) : Faulty (resolveAlias name) := by
  refine .get_bind fun r _ => ?_
  split
  · exact preserves_pure
  · exact faulty_malformed

theorem faulty_inside {read : Reading α} (h : Faulty read) : Faulty (inside read) := by
  have hrest : Faulty (do
      let found ← read
      modify fun r => { r with depth := r.depth - 1 }
      pure found) :=
    h.bind fun _ => .bind (preserves_modify fun _ h => h) fun _ => preserves_pure
  exact .bind (preserves_modify fun _ h => h) fun _ => .get_bind fun _ _ =>
    .ite ((preserves_throw .endless).bind fun _ => hrest) hrest

theorem faulty_collect (anchor : Option String) (tag : Tag) {read : Reading Content}
    (h : Faulty read) : Faulty (collect anchor tag read) :=
  (faulty_add _).bind fun _ => (faulty_mark _ _).bind fun _ =>
    (faulty_inside h).bind fun _ => (faulty_replace _ _).bind fun _ => preserves_pure

/-! ## The readers -/

/-- With some fuel, no reader fails in another way. -/
structure FaultyReaders (fuel : Nat) : Prop where
  read (inBlock indentless : Bool) : Faulty (read inBlock indentless fuel)
  readUnless (ends : List Token) (inBlock indentless : Bool) :
    Faulty (readUnless ends inBlock indentless fuel)
  readValue (ends : List Token) (inBlock indentless : Bool) :
    Faulty (readValue ends inBlock indentless fuel)
  readBlockItems : Faulty (readBlockItems fuel)
  readIndentless : Faulty (readIndentless fuel)
  readBlockEntries : Faulty (readBlockEntries fuel)
  readFlowItems (first : Bool) : Faulty (readFlowItems first fuel)
  readFlowEntries (first : Bool) : Faulty (readFlowEntries first fuel)

theorem faultyReaders_zero : FaultyReaders 0 where
  read _ _ := faulty_malformed
  readUnless _ _ _ := faulty_malformed
  readValue _ _ _ := faulty_malformed
  readBlockItems := faulty_malformed
  readIndentless := faulty_malformed
  readBlockEntries := faulty_malformed
  readFlowItems _ := faulty_malformed
  readFlowEntries _ := faulty_malformed

namespace FaultyReaders

variable {fuel : Nat}

theorem read_succ (h : FaultyReaders fuel) (inBlock indentless : Bool) :
    Faulty (Node.read inBlock indentless (fuel + 1)) := by
  unfold Node.read
  refine faulty_peek.bind fun _ => ?_
  split
  · exact faulty_drop.bind fun _ => faulty_resolveAlias _
  · refine faulty_readProperties.bind fun properties => ?_
    obtain ⟨anchor, tag⟩ := properties
    refine faulty_peek.bind fun next => (faulty_checkAnchor _).bind fun _ => ?_
    have hitems : ∀ {read : Reading (List Nat)}, Faulty read →
        Faulty (collect anchor (typeOf tag .sequence) (.sequence <$> read)) :=
      fun h => faulty_collect _ _ h.map
    have hentries : ∀ {read : Reading (List (Nat × Nat))}, Faulty read →
        Faulty (collect anchor (typeOf tag .mapping) (.mapping <$> read)) :=
      fun h => faulty_collect _ _ h.map
    have hscalar : ∀ isPlain text, Faulty (do
        let number ← add ⟨scalarType tag isPlain text, .scalar text⟩
        mark anchor number
        pure number) :=
      fun _ _ => (faulty_add _).bind fun _ => (faulty_mark _ _).bind fun _ => preserves_pure
    have habsent : Faulty (if anchor.isSome || tag.isSome then (do
        let number ← add ⟨scalarType tag true [], .scalar []⟩
        mark anchor number
        pure number) else liftM (malformed : Except Failure Nat)) :=
      .ite (hscalar _ _) faulty_malformed
    split
    · exact faulty_drop.bind fun _ => hscalar _ _
    · exact faulty_drop.bind fun _ => hitems (h.readFlowItems _)
    · exact faulty_drop.bind fun _ => hentries (h.readFlowEntries _)
    · exact .ite (hitems h.readIndentless) habsent
    · exact .ite (faulty_drop.bind fun _ => hitems h.readBlockItems) habsent
    · exact .ite (faulty_drop.bind fun _ => hentries h.readBlockEntries) habsent
    · exact habsent

theorem readUnless_succ (h : FaultyReaders fuel) (ends : List Token) (inBlock indentless : Bool) :
    Faulty (Node.readUnless ends inBlock indentless (fuel + 1)) := by
  unfold Node.readUnless
  exact (faulty_atOneOf _).bind fun _ => .ite faulty_empty (h.read _ _)

theorem readValue_succ (h : FaultyReaders fuel) (ends : List Token) (inBlock indentless : Bool) :
    Faulty (Node.readValue ends inBlock indentless (fuel + 1)) := by
  unfold Node.readValue
  exact (faulty_accept _).bind fun _ => .ite (h.readUnless _ _ _) faulty_empty

theorem readBlockItems_succ (h : FaultyReaders fuel) :
    Faulty (Node.readBlockItems (fuel + 1)) := by
  unfold Node.readBlockItems
  exact (faulty_accept _).bind fun _ => .ite
    ((h.readUnless _ _ _).bind fun _ => h.readBlockItems.bind fun _ => preserves_pure)
    ((faulty_expect _).bind fun _ => preserves_pure)

theorem readIndentless_succ (h : FaultyReaders fuel) :
    Faulty (Node.readIndentless (fuel + 1)) := by
  unfold Node.readIndentless
  exact (faulty_accept _).bind fun _ => .ite
    ((h.readUnless _ _ _).bind fun _ => h.readIndentless.bind fun _ => preserves_pure)
    preserves_pure

theorem readBlockEntries_succ (h : FaultyReaders fuel) :
    Faulty (Node.readBlockEntries (fuel + 1)) := by
  unfold Node.readBlockEntries
  exact (faulty_accept _).bind fun _ => .ite
    ((h.readUnless _ _ _).bind fun _ => (h.readValue _ _ _).bind fun _ =>
      h.readBlockEntries.bind fun _ => preserves_pure)
    ((faulty_expect _).bind fun _ => preserves_pure)

theorem readFlowItems_succ (h : FaultyReaders fuel) (first : Bool) :
    Faulty (Node.readFlowItems first (fuel + 1)) := by
  have hpair : Faulty (collect none .mapping (do
      let key ← Node.readUnless [.value, .flowEntry, .flowSequenceEnd] false false fuel
      let value ← Node.readValue [.flowEntry, .flowSequenceEnd] false false fuel
      pure (.mapping [(key, value)]))) :=
    faulty_collect _ _
      ((h.readUnless _ _ _).bind fun _ => (h.readValue _ _ _).bind fun _ => preserves_pure)
  unfold Node.readFlowItems
  refine (faulty_accept _).bind fun _ => .ite preserves_pure ?_
  have hrest : Faulty (do
      if ← accept .key then
        let pair ← collect none .mapping (do
          let key ← Node.readUnless [.value, .flowEntry, .flowSequenceEnd] false false fuel
          let value ← Node.readValue [.flowEntry, .flowSequenceEnd] false false fuel
          pure (.mapping [(key, value)]))
        return pair :: (← Node.readFlowItems false fuel)
      else if ← accept .flowSequenceEnd then pure []
      else
        let item ← Node.read false false fuel
        return item :: (← Node.readFlowItems false fuel)) :=
    (faulty_accept _).bind fun _ => .ite
      (hpair.bind fun _ => (h.readFlowItems _).bind fun _ => preserves_pure)
      ((faulty_accept _).bind fun _ => .ite preserves_pure
        ((h.read _ _).bind fun _ => (h.readFlowItems _).bind fun _ => preserves_pure))
  exact .ite ((faulty_expect _).bind fun _ => hrest) hrest

theorem readFlowEntries_succ (h : FaultyReaders fuel) (first : Bool) :
    Faulty (Node.readFlowEntries first (fuel + 1)) := by
  unfold Node.readFlowEntries
  refine (faulty_accept _).bind fun _ => .ite preserves_pure ?_
  have hrest : Faulty (do
      if ← accept .key then
        let key ← Node.readUnless [.value, .flowEntry, .flowMappingEnd] false false fuel
        let value ← Node.readValue [.flowEntry, .flowMappingEnd] false false fuel
        return (key, value) :: (← Node.readFlowEntries false fuel)
      else if ← accept .flowMappingEnd then pure []
      else
        let key ← Node.read false false fuel
        let value ← empty
        return (key, value) :: (← Node.readFlowEntries false fuel)) :=
    (faulty_accept _).bind fun _ => .ite
      ((h.readUnless _ _ _).bind fun _ => (h.readValue _ _ _).bind fun _ =>
        (h.readFlowEntries _).bind fun _ => preserves_pure)
      ((faulty_accept _).bind fun _ => .ite preserves_pure
        ((h.read _ _).bind fun _ => faulty_empty.bind fun _ =>
          (h.readFlowEntries _).bind fun _ => preserves_pure))
  exact .ite ((faulty_expect _).bind fun _ => hrest) hrest

end FaultyReaders

theorem faultyReaders (fuel : Nat) : FaultyReaders fuel := by
  induction fuel with
  | zero => exact faultyReaders_zero
  | succ fuel ih =>
    exact {
      read := ih.read_succ
      readUnless := ih.readUnless_succ
      readValue := ih.readValue_succ
      readBlockItems := ih.readBlockItems_succ
      readIndentless := ih.readIndentless_succ
      readBlockEntries := ih.readBlockEntries_succ
      readFlowItems := ih.readFlowItems_succ
      readFlowEntries := ih.readFlowEntries_succ }

/-! ## Documents -/

theorem fails_readDirectives (versioned : Bool) (handles : List (String × String))
    (tokens : List Token) : Fails NodeFault (readDirectives versioned handles tokens) := by
  fun_induction readDirectives versioned handles tokens with
  | case1 => exact fails_malformed .unreadable
  | case2 _ _ _ _ _ ih => exact ih
  | case3 => exact fails_malformed .unreadable
  | case4 _ _ _ _ _ _ ih => exact ih
  | case5 _ _ _ ih => exact ih
  | case6 => exact fails_ok

theorem faulty_readContent (fuel : Nat) : Faulty (readContent fuel) := by
  refine faulty_peek.bind fun _ => ?_
  split
  · exact faulty_empty
  · exact faulty_empty
  · exact faulty_empty
  · exact faulty_empty
  · exact (faultyReaders fuel).read _ _

theorem faulty_readFirst (fuel : Nat) : Faulty (readFirst fuel) := by
  refine faulty_peek.bind fun _ => ?_
  split
  · exact preserves_pure
  · refine .ite (.get_bind fun _ hr => ?_) ((faultyReaders fuel).read _ _).map
    exact (preserves_lift (fails_readDirectives _ _ _)).bind fun _ => .set_bind hr
      ((faulty_expect _).bind fun _ => (faulty_readContent fuel).map)

theorem faulty_readOnly (fuel : Nat) : Faulty (readOnly fuel) := by
  refine (faulty_readFirst fuel).bind fun _ => ?_
  split
  · exact preserves_pure
  · exact .bind (preserves_modify fun _ h => h) fun _ => (faulty_expect _).bind fun _ =>
      .get_bind fun _ _ => preserves_pure

end Node

/-- **The document of some tokens.** -/
theorem fails_ofTokens? {s : TokenStream} (h : TokenFault s.stop) :
    Fails NodeFault (Document.ofTokens? s) :=
  (Node.faulty_readOnly _ _ h).1.map

end Clearance.Yaml
