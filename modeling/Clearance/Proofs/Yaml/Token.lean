import Clearance.Proofs.Faults
import Clearance.Yaml.Token.Scan

/-! What can be wrong with the tokens of YAML.

Most of what a scanner cannot read is no YAML. Three numbers are read on the way, of escapes
and of versions, and too large ones fail in ways of their own. -/
namespace Clearance.Yaml

/-- The failures of a scanner. -/
inductive TokenFault : Failure → Prop
  /-- The text is not YAML. -/
  | unreadable : TokenFault (.rejected .unreadableYaml)
  /-- An escape beyond 31 bits. -/
  | outOfRange : TokenFault .outOfRange
  /-- An escape beyond Unicode, or a version of too many digits. -/
  | illFormed : TokenFault .illFormed

theorem fails_malformed {α : Type} {faults : Failure → Prop}
    (h : faults (.rejected .unreadableYaml)) : Fails faults (malformed : Except Failure α) :=
  fails_error h

theorem fails_malformed_token {α : Type} : Fails TokenFault (malformed : Except Failure α) :=
  fails_malformed .unreadable

/-! ## Scalars -/

theorem fails_readFoldedBreaks (fuel : Nat) (c : Cursor) :
    Fails TokenFault (readFoldedBreaks fuel c) := by
  induction fuel generalizing c with
  | zero => exact fails_ok
  | succ fuel ih =>
    unfold readFoldedBreaks
    split
    · exact fails_malformed_token
    · simp only
      split
      · exact (ih _).bind fun _ => fails_ok
      · exact fails_ok

theorem fails_readQuotedSpaces (c : Cursor) : Fails TokenFault (readQuotedSpaces c) := by
  unfold readQuotedSpaces
  simp only
  split
  · exact fails_malformed_token
  · split
    · exact (fails_readFoldedBreaks _ _).bind fun _ => fails_ok
    · exact fails_ok

theorem fails_escapedPoint (code : Nat) : Fails TokenFault (escapedPoint code) := by
  unfold escapedPoint
  split
  · exact fails_error .outOfRange
  · split
    · exact fails_error .illFormed
    · exact fails_ok

theorem fails_readQuotedWord (double : Bool) (fuel : Nat) (c : Cursor) :
    Fails TokenFault (readQuotedWord double fuel c) := by
  induction fuel generalizing c with
  | zero => exact fails_ok
  | succ fuel ih =>
    unfold readQuotedWord
    simp only
    split
    · exact (ih _).bind fun _ => fails_ok
    · split
      · exact (ih _).bind fun _ => fails_ok
      · split
        · split
          · exact (ih _).bind fun _ => fails_ok
          · split
            · exact fails_malformed_token
            · exact (fails_escapedPoint _).bind fun _ => (ih _).bind fun _ => fails_ok
          · split
            · exact (fails_readFoldedBreaks _ _).bind fun _ => (ih _).bind fun _ => fails_ok
            · exact fails_malformed_token
        · exact fails_ok

theorem fails_readQuotedRest (double : Bool) (fuel : Nat) (c : Cursor) :
    Fails TokenFault (readQuotedRest double fuel c) := by
  induction fuel generalizing c with
  | zero => exact fails_malformed_token
  | succ fuel ih =>
    unfold readQuotedRest
    exact .ite fails_ok ((fails_readQuotedSpaces _).bind fun _ =>
      (fails_readQuotedWord _ _ _).bind fun _ => (ih _).bind fun _ => fails_ok)

theorem fails_readQuoted (double : Bool) (c : Cursor) :
    Fails TokenFault (readQuoted double c) :=
  (fails_readQuotedWord _ _ _).bind fun _ => (fails_readQuotedRest _ _ _).bind fun _ => fails_ok

theorem fails_skipIgnoredLine (c : Cursor) : Fails TokenFault c.skipIgnoredLine := by
  unfold Cursor.skipIgnoredLine
  simp only
  split
  · exact fails_ok
  · exact fails_malformed_token

theorem fails_readIndicators (c : Cursor) : Fails TokenFault (readIndicators c) := by
  have hincrement : ∀ c : Cursor, Fails TokenFault
      (if c.peek.isDigit then
        if c.peek == '0' then malformed else .ok (some (hexDigit c.peek), c.next)
      else .ok (none, c) : Except Failure (Option Nat × Cursor)) :=
    fun _ => .ite (.ite fails_malformed_token fails_ok) fails_ok
  have hend : ∀ x : Chomping × Option Nat × Cursor,
      Fails TokenFault (if endsItem x.2.2.peek then .ok x else malformed) :=
    fun _ => .ite fails_ok fails_malformed_token
  unfold readIndicators
  simp only
  split
  · exact (hincrement _).bind fun _ => hend (_, _, _)
  · refine (hincrement _).bind fun _ => ?_
    split
    · exact hend (_, _, _)
    · exact hend (_, _, _)

theorem fails_readBlock (folded : Bool) (outer : Int) (c : Cursor) :
    Fails TokenFault (readBlock folded outer c) :=
  (fails_readIndicators _).bind fun _ => (fails_skipIgnoredLine _).bind fun _ => fails_ok

/-! ## Names, tags and directives -/

theorem fails_readAnchorName (c : Cursor) : Fails TokenFault (readAnchorName c) := by
  unfold readAnchorName
  simp only
  split
  · exact fails_malformed_token
  · split
    · exact fails_ok
    · exact fails_malformed_token

theorem fails_readHandle (c : Cursor) : Fails TokenFault (readHandle c) := by
  unfold readHandle
  split
  · exact fails_malformed_token
  · split
    · exact fails_ok
    · simp only
      split
      · exact fails_ok
      · exact fails_malformed_token

theorem fails_readTagOctets (fuel : Nat) (c : Cursor) :
    Fails TokenFault (readTagOctets fuel c) := by
  induction fuel generalizing c with
  | zero => exact fails_ok
  | succ fuel ih =>
    unfold readTagOctets
    simp only
    split
    · split
      · exact (ih _).bind fun _ => fails_ok
      · exact fails_malformed_token
    · exact fails_ok

theorem fails_readTagChars (fuel : Nat) (c : Cursor) : Fails TokenFault (readTagChars fuel c) := by
  induction fuel generalizing c with
  | zero => exact fails_ok
  | succ fuel ih =>
    unfold readTagChars
    split
    · exact (ih _).bind fun _ => fails_ok
    · split
      · refine (fails_readTagOctets _ _).bind fun _ => ?_
        split
        split
        · exact fails_malformed_token
        · exact (ih _).bind fun _ => fails_ok
      · exact fails_ok

theorem fails_readTagText (c : Cursor) : Fails TokenFault (readTagText c) := by
  refine (fails_readTagChars _ _).bind fun _ => ?_
  split
  split
  · exact fails_malformed_token
  · exact fails_ok

theorem fails_readTag (c : Cursor) : Fails TokenFault (readTag c) := by
  have hend : ∀ x : Token × Cursor,
      Fails TokenFault (if endsItem x.2.peek then .ok x else malformed) :=
    fun _ => .ite fails_ok fails_malformed_token
  unfold readTag
  refine .ite ?_ (.ite ?_ (.ite ?_ ?_))
  · exact (fails_readTagText _).bind fun _ =>
      .ite (hend (_, _)) (fails_malformed_token.bind fun _ => hend _)
  · exact hend (_, _)
  · exact (fails_readHandle _).bind fun _ => (fails_readTagText _).bind fun _ => hend (_, _)
  · exact (fails_readTagText _).bind fun _ => hend (_, _)

theorem fails_readVersionPart (c : Cursor) : Fails TokenFault (readVersionPart c) := by
  unfold readVersionPart
  simp only
  split
  · exact fails_malformed_token
  · split
    · exact fails_error .illFormed
    · exact fails_ok

theorem fails_readDirective (c : Cursor) : Fails TokenFault (readDirective c) := by
  have hend : ∀ x : Directive × Cursor, Fails TokenFault
      (x.2.skipIgnoredLine >>= fun c => .ok (Token.directive x.1, c)) :=
    fun _ => (fails_skipIgnoredLine _).bind fun _ => fails_ok
  unfold readDirective
  refine .ite fails_malformed_token (.ite ?_ (.ite ?_ (fails_ok.bind hend)))
  · exact (fails_readVersionPart _).bind fun _ => .ite (fails_malformed_token.bind hend)
      ((fails_readVersionPart _).bind fun _ =>
        .ite (fails_ok.bind hend) (fails_malformed_token.bind hend))
  · exact (fails_readHandle _).bind fun _ => .ite (fails_malformed_token.bind hend)
      ((fails_readTagText _).bind fun _ =>
        .ite (fails_ok.bind hend) (fails_malformed_token.bind hend))

/-! ## Scanning -/

namespace Scanner

theorem fails_dropStaleKeys (s : Scanner) : Fails TokenFault s.dropStaleKeys :=
  .ite fails_malformed_token fails_ok

theorem fails_dropKey (s : Scanner) : Fails TokenFault s.dropKey := by
  unfold dropKey
  split
  · exact fails_ok
  · exact .ite fails_malformed_token fails_ok

theorem fails_markKey (s : Scanner) : Fails TokenFault s.markKey :=
  .ite ((fails_dropKey _).bind fun _ => fails_ok) fails_ok

theorem fails_addValue (s : Scanner) : Fails TokenFault s.addValue := by
  unfold addValue
  split
  · exact fails_ok
  · exact .ite fails_malformed_token ((fails_dropKey _).bind fun _ => fails_ok)

theorem fails_addContent (s : Scanner) {read : Cursor → Except Failure (Token × Cursor)}
    (h : ∀ c, Fails TokenFault (read c)) : Fails TokenFault (s.addContent read) :=
  (fails_markKey _).bind fun _ => (h _).bind fun _ => fails_ok

/-- **One token.** -/
theorem fails_readToken (s : Scanner) : Fails TokenFault s.readToken := by
  have hname : ∀ (make : String → Token) (c : Cursor),
      Fails TokenFault (readAnchorName c >>= fun x => pure (make x.1, x.2)) :=
    fun _ _ => (fails_readAnchorName _).bind fun _ => fails_ok
  have hdropped : ∀ (s : Scanner) (f : Scanner → Scanner),
      Fails TokenFault (s.dropKey >>= fun s => .ok (f s)) :=
    fun s _ => (fails_dropKey s).bind fun _ => fails_ok
  have hflow : ∀ t, Fails TokenFault (s.openFlow t) :=
    fun _ => (fails_markKey _).bind fun _ => fails_ok
  have hclose : ∀ t, Fails TokenFault (s.closeFlow t) :=
    fun _ => (fails_dropKey _).bind fun _ => .ite fails_malformed_token fails_ok
  have hblock : ∀ folded, Fails TokenFault (s.addBlockScalar folded) :=
    fun _ => (fails_dropKey _).bind fun _ => (fails_readBlock _ _ _).bind fun _ => fails_ok
  unfold readToken
  refine .ite ?finish (.ite ?directive (.ite ?marker (.ite ?flowSequence (.ite ?flowMapping
    (.ite ?flowSequenceEnd (.ite ?flowMappingEnd (.ite ?flowEntry (.ite ?blockEntry (.ite ?key
    (.ite ?value (.ite ?reference (.ite ?anchor (.ite ?tag (.ite ?literal (.ite ?folded
    (.ite ?single (.ite ?double (.ite ?plain fails_malformed_token))))))))))))))))))
  case finish => exact hdropped _ _
  case directive =>
    exact (fails_dropKey _).bind fun _ => (fails_readDirective _).bind fun _ => fails_ok
  case marker => exact hdropped _ _
  case flowSequence => exact hflow _
  case flowMapping => exact hflow _
  case flowSequenceEnd => exact hclose _
  case flowMappingEnd => exact hclose _
  case flowEntry => exact hdropped _ _
  case blockEntry => exact .ite fails_malformed_token (hdropped _ _)
  case key => exact .ite fails_malformed_token (hdropped _ _)
  case value => exact fails_addValue s
  case reference => exact fails_addContent s (hname _)
  case anchor => exact fails_addContent s (hname _)
  case tag => exact fails_addContent s fails_readTag
  case literal => exact hblock _
  case folded => exact hblock _
  case single => exact fails_addContent s (fails_readQuoted _)
  case double => exact fails_addContent s (fails_readQuoted _)
  case plain => exact (fails_markKey _).bind fun _ => fails_ok

theorem fails_step (s : Scanner) : Fails TokenFault s.step := by
  unfold step
  exact (fails_dropStaleKeys _).bind fun _ => (fails_readToken _).bind fun _ => fails_ok

/-- What stops a scanner is a fault of its text. -/
theorem tokenFault_run (fuel : Nat) (s : Scanner) : TokenFault (run fuel s).stop := by
  induction fuel generalizing s with
  | zero => exact .unreadable
  | succ fuel ih =>
    unfold run
    split
    · next stop hstop => exact fails_step s stop hstop
    · exact .unreadable
    · exact ih _

end Scanner

/-- **All tokens.** What stops the tokens of a text is a fault of the text. -/
theorem tokenFault_ofText (text : List Char) : TokenFault (TokenStream.ofText text).stop := by
  unfold TokenStream.ofText
  split
  · exact Scanner.tokenFault_run _ _
  · exact .unreadable

end Clearance.Yaml
