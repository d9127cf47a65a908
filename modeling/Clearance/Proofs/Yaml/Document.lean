import Clearance.Proofs.Yaml.Node
import Clearance.Yaml.Document

/-! What can be wrong with a YAML text.

Behind its nodes, a text can fail in its scalars, of which some do not spell a value of their
type, and where collections are opened. -/
namespace Clearance.Yaml

/-- The failures of a reader of values. -/
inductive ReadFault : Failure → Prop
  /-- What is wrong with the nodes. -/
  | node {f : Failure} (h : NodeFault f) : ReadFault f
  /-- A text that is no truth value. -/
  | missingKey : ReadFault .missingKey
  /-- A number without digits. -/
  | missingPlace : ReadFault .missingPlace
  /-- A text that is no timestamp. -/
  | missingAttribute : ReadFault .missingAttribute
  /-- A mapping for a timestamp. -/
  | mismatch : ReadFault .mismatch

namespace ReadFault

theorem unreadable : ReadFault (.rejected .unreadableYaml) :=
  .node .unreadable

theorem illFormed : ReadFault .illFormed :=
  .node (.token .illFormed)

theorem outOfRange : ReadFault .outOfRange :=
  .node (.token .outOfRange)

theorem endless : ReadFault .endless :=
  .node .endless

end ReadFault

/-! ## Scalars -/

section Scalars

variable {α : Type}

theorem fails_orIllFormed (x : Option α) : Fails ReadFault (orIllFormed x) := by
  cases x with
  | none => exact fails_error .illFormed
  | some a => exact fails_ok

theorem fails_signed (text : List Char) : Fails ReadFault (signed text) := by
  unfold signed
  split
  · exact fails_error .missingPlace
  · exact fails_ok

theorem fails_readMagnitude (cs : List Char) : Fails ReadFault (readMagnitude cs) := by
  unfold readMagnitude
  split
  · exact fails_error .missingPlace
  · exact fails_ok
  · exact fails_orIllFormed _
  · exact fails_orIllFormed _
  · exact fails_orIllFormed _
  · exact .ite (fails_orIllFormed _) (fails_orIllFormed _)

theorem fails_readInt (text : List Char) : Fails ReadFault (readInt text) :=
  (fails_signed text).bind fun _ => (fails_readMagnitude _).bind fun _ => fails_ok

theorem fails_sumSixties (base : Int) (places : List Binary64) (sum : Binary64) :
    Fails ReadFault (sumSixties base places sum) := by
  induction places generalizing base sum with
  | nil => exact fails_ok
  | cons p rest ih => exact .ite (fails_error .outOfRange) (ih _ _)

theorem fails_readFloat (text : List Char) : Fails ReadFault (readFloat text) :=
  (fails_signed text).bind fun _ => .ite fails_ok (.ite fails_ok (.ite
    ((fails_orIllFormed _).bind fun _ => (fails_sumSixties _ _ _).bind fun _ => fails_ok)
    ((fails_orIllFormed _).bind fun _ => fails_ok)))

theorem fails_readBool (text : List Char) : Fails ReadFault (readBool text) :=
  .ite fails_ok (.ite fails_ok (fails_error .missingKey))

theorem fails_readOffset (zone : Option (Bool × Nat × Nat)) :
    Fails ReadFault (readOffset zone) := by
  unfold readOffset
  split
  · exact fails_ok
  · exact .ite fails_ok (fails_error .illFormed)

theorem fails_readMoment (t : Tag.Timestamp) : Fails ReadFault (readMoment t) := by
  unfold readMoment
  split
  · exact .ite fails_ok (fails_error .illFormed)
  · exact (fails_readOffset _).bind fun _ => .ite fails_ok (fails_error .illFormed)

theorem fails_readTimestamp (text : List Char) : Fails ReadFault (readTimestamp text) := by
  unfold readTimestamp
  split
  · exact fails_readMoment _
  · exact fails_error .missingAttribute

theorem fails_readBinary (text : List Char) : Fails ReadFault (readBinary text) := by
  refine .ite (fails_malformed .unreadable) ?_
  split
  · exact fails_ok
  · exact fails_malformed .unreadable

theorem fails_readScalar (number : Nat) (tag : Tag) (text : List Char) :
    Fails ReadFault (readScalar number tag text) := by
  unfold readScalar
  split
  · exact fails_ok
  · exact fails_readBool text
  · exact fails_readInt text
  · exact (fails_readFloat text).map
  · exact fails_readBinary text
  · exact fails_readTimestamp text
  · exact fails_ok
  · exact fails_malformed .unreadable

end Scalars

/-! ## Opening a document -/

namespace Document

/-- A step of opening a document fails in those ways alone. -/
abbrev Faulty {α : Type} (m : Open α) : Prop :=
  Preserves (fun _ => True) ReadFault m

variable {α : Type}

theorem faulty_malformed : Faulty (liftM (malformed : Except Failure α) : Open α) :=
  preserves_lift (fails_malformed .unreadable)

theorem faulty_modify (f : Opening → Opening) : Faulty (modify f) :=
  preserves_modify fun _ _ => trivial

theorem faulty_nodeAt (number : Nat) : Faulty (nodeAt number) := by
  refine .get_bind fun o _ => ?_
  split
  · exact preserves_pure
  · exact faulty_malformed

theorem faulty_entriesAt (number : Nat) : Faulty (entriesAt number) := by
  refine (faulty_nodeAt number).bind fun _ => ?_
  split
  · exact preserves_pure
  · exact faulty_malformed

theorem faulty_defaultOf (entries : List (Nat × Nat)) : Faulty (defaultOf entries) := by
  induction entries with
  | nil => exact faulty_malformed
  | cons e rest ih => exact (faulty_nodeAt _).bind fun _ => .ite preserves_pure ih

theorem faulty_textOf (fuel number : Nat) : Faulty (textOf fuel number) := by
  induction fuel generalizing number with
  | zero => exact preserves_throw .endless
  | succ fuel ih =>
    refine (faulty_nodeAt number).bind fun _ => ?_
    split
    · exact preserves_pure
    · exact faulty_malformed
    · exact (faulty_defaultOf _).bind fun _ => ih _

theorem faulty_visit (number : Nat) : Faulty (visit number) := by
  have hscalar : ∀ (o : Opening) (n : Node) (isOwn : Bool), Faulty (do
      let text ← textOf (o.nodes.size + 1) number
      if n.tag = .timestamp && !isOwn then throw .mismatch
      let v ← readScalar number n.tag text
      modify fun o => { o with values := o.values.setIfInBounds number (some v) }) := by
    intro o n isOwn
    refine (faulty_textOf _ _).bind fun _ => ?_
    have hread : ∀ text, Faulty (do
        let v ← readScalar number n.tag text
        modify fun o => { o with values := o.values.setIfInBounds number (some v) }) :=
      fun _ => (preserves_lift (fails_readScalar _ _ _)).bind fun _ => faulty_modify _
    exact .ite ((preserves_throw .mismatch).bind fun _ => hread _) (hread _)
  refine .get_bind fun o _ => .ite ?_ preserves_pure
  refine .set_bind trivial ((faulty_nodeAt number).bind fun n => .ite (faulty_modify _) ?_)
  exact .ite (faulty_malformed.bind fun _ => hscalar o n _) (hscalar o n _)

theorem faulty_mergePlace? (entries : List (Nat × Nat)) : Faulty (mergePlace? entries) := by
  induction entries with
  | nil => exact preserves_pure
  | cons e rest ih =>
    refine (faulty_nodeAt _).bind fun _ => .ite preserves_pure ?_
    have hrest : Faulty (do return (← mergePlace? rest).map (· + 1)) :=
      ih.bind fun _ => preserves_pure
    exact .ite ((faulty_modify _).bind fun _ => hrest) hrest

theorem faulty_setEntries (number : Nat) (entries : List (Nat × Nat)) :
    Faulty (setEntries number entries) :=
  (faulty_nodeAt number).bind fun _ => faulty_modify _

/-- With some fuel, no step of merging fails in another way. -/
structure FaultyMerging (fuel : Nat) : Prop where
  merge (number : Nat) : Faulty (merge fuel number)
  mergeFrom (number place : Nat) (taken : List (Nat × Nat)) :
    Faulty (mergeFrom fuel number place taken)
  mergedEntries (number : Nat) : Faulty (mergedEntries fuel number)

theorem faultyMerging_zero : FaultyMerging 0 where
  merge _ := by
    unfold Document.merge
    exact faulty_malformed
  mergeFrom _ _ _ := by
    unfold Document.mergeFrom
    exact faulty_malformed
  mergedEntries _ := by
    unfold Document.mergedEntries
    exact faulty_malformed

namespace FaultyMerging

variable {fuel : Nat}

theorem merge_succ (h : FaultyMerging fuel) (number : Nat) :
    Faulty (Document.merge (fuel + 1) number) := by
  unfold Document.merge
  exact h.mergeFrom number 0 []

theorem mergeFrom_succ (h : FaultyMerging fuel) (number place : Nat)
    (taken : List (Nat × Nat)) : Faulty (Document.mergeFrom (fuel + 1) number place taken) := by
  unfold Document.mergeFrom
  refine (faulty_entriesAt number).bind fun _ => (faulty_mergePlace? _).bind fun _ => ?_
  split
  · exact (faulty_entriesAt number).bind fun _ => faulty_setEntries _ _
  · refine (faulty_entriesAt number).bind fun _ => (faulty_setEntries _ _).bind fun _ =>
      (faulty_nodeAt _).bind fun _ => ?_
    split
    · exact faulty_malformed.bind fun _ => h.mergeFrom _ _ _
    · exact (h.mergedEntries _).bind fun _ => h.mergeFrom _ _ _
    · exact (Preserves.mapM h.mergedEntries _).bind fun _ => preserves_pure.bind fun _ =>
      h.mergeFrom _ _ _

theorem mergedEntries_succ (h : FaultyMerging fuel) (number : Nat) :
    Faulty (Document.mergedEntries (fuel + 1) number) := by
  unfold Document.mergedEntries
  exact (h.merge number).bind fun _ => faulty_entriesAt number

end FaultyMerging

theorem faultyMerging (fuel : Nat) : FaultyMerging fuel := by
  induction fuel with
  | zero => exact faultyMerging_zero
  | succ fuel ih =>
    exact {
      merge := ih.merge_succ
      mergeFrom := ih.mergeFrom_succ
      mergedEntries := ih.mergedEntries_succ }

theorem faulty_visitEntries (entries : List (Nat × Nat)) : Faulty (visitEntries entries) := by
  unfold visitEntries
  refine .forM (fun e => ?_) entries
  obtain ⟨k, v⟩ := e
  exact (faulty_visit k).bind fun _ => (faulty_nodeAt k).bind fun _ =>
    .ite (faulty_malformed.bind fun _ => faulty_visit v) (faulty_visit v)

theorem faulty_visitPair (number : Nat) : Faulty (visitPair number) := by
  refine (faulty_entriesAt number).bind fun _ => ?_
  split
  · exact (faulty_visit _).bind fun _ => faulty_visit _
  · exact faulty_malformed

theorem faulty_openNode (number : Nat) : Faulty (openNode number) := by
  have hmapping : Faulty (do
      merge (← mergeFuel) number
      visitEntries (← entriesAt number)) :=
    (Preserves.get_bind fun _ _ => preserves_pure).bind fun fuel =>
      ((faultyMerging fuel).merge number).bind fun _ =>
        (faulty_entriesAt number).bind fun _ => faulty_visitEntries _
  refine (faulty_nodeAt number).bind fun _ => ?_
  split
  · exact .forM faulty_visit _
  · exact .forM faulty_visitPair _
  · exact .forM faulty_visitPair _
  · exact hmapping
  · exact hmapping
  · exact faulty_malformed

theorem faulty_openAll (fuel : Nat) : Faulty (openAll fuel) := by
  induction fuel with
  | zero => exact preserves_pure
  | succ fuel ih =>
    exact .get_bind fun _ _ => .ite
      (.set_bind trivial ((Preserves.forM faulty_openNode _).bind fun _ => ih)) preserves_pure

theorem fails_opened (d : Document) : Fails ReadFault d.opened :=
  (((faulty_visit d.root).bind fun _ => faulty_openAll _) _ trivial).1.bind fun _ => fails_ok

theorem fails_toValue (d : Document) : Fails ReadFault d.toValue := by
  refine (fails_opened d).bind fun o => ?_
  simp only
  split
  · exact fails_ok
  · exact fails_ok

end Document

/-- **A text.** -/
theorem fails_read (text : List Char) : Fails ReadFault (read text) := by
  have hnodes := (fails_ofTokens? (tokenFault_ofText text)).mono fun _ => ReadFault.node
  refine hnodes.bind fun d => ?_
  cases d with
  | none => exact fails_ok
  | some d => exact Document.fails_toValue d

end Clearance.Yaml
