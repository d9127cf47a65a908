import Clearance.Text.Quoted

/-! Texts with halves of surrogate pairs that stand alone.

A character of more than sixteen bits can be escaped by two units, a high half and a low one. A
half that is escaped by itself is no character, and two of them next to each other are not the
character that they would make up. -/
namespace Clearance.Text

/-! ## Pairs -/

/-- A character by its code, which may be one half of a pair that is missing. -/
def ofCode (n : Nat) : Char :=
  if n.isValidChar then Char.ofNat n else '\ufffd'

/-- The character of two units of sixteen bits, if they belong together. -/
def ofPair? (high low : Nat) : Option Char :=
  if 0xd800 ≤ high && high < 0xdc00 && 0xdc00 ≤ low && low < 0xe000 then
    some (ofCode (0x10000 + (high - 0xd800) * 0x400 + (low - 0xdc00)))
  else none

/-- Half of a surrogate pair. -/
structure Half where
  code : Nat
  isHalf : 0xd800 ≤ code ∧ code < 0xe000
deriving DecidableEq

/-- A character, or half of one. -/
inductive Point where
  | char (c : Char)
  | half (h : Half)
deriving DecidableEq

/-- The code of a character or half. -/
def Point.code : Point → Nat
  | char c => c.toNat
  | half h => h.code

/-- What a code stands for, if it is one of Unicode. -/
def Point.ofCode (code : Nat) : Point :=
  if h : 0xd800 ≤ code ∧ code < 0xe000 then half ⟨code, h⟩ else char (Text.ofCode code)

/-- The characters of a text in which halves next to each other have found together. What is
left of others is that something was there. -/
def joinedBehind (waiting : Option Half) : List Point → List Char
  | [] => lost
  | .char c :: rest => lost ++ c :: joinedBehind none rest
  | .half h :: rest =>
    match waiting.bind fun high => ofPair? high.code h.code with
    | some c => c :: joinedBehind none rest
    | none => lost ++ joinedBehind (some h) rest
where
  /-- What a half leaves that has waited for another one. -/
  lost : List Char :=
    if waiting.isSome then ['\ufffd'] else []

/-- The characters of a text, halves next to each other taken for one. -/
def joined (points : List Point) : List Char :=
  joinedBehind none points

/-! ## Loose texts -/

/-- A text with a half that stands alone. -/
structure Loose where
  points : List Point
  isLoose : ∃ h, .half h ∈ points

instance : DecidableEq Loose := fun a b =>
  decidable_of_iff (a.points = b.points) (by cases a; cases b; simp)

/-- One character or half inside quotes. -/
def Point.escaped (quote : Char) : Point → List Char
  | char c => Text.escaped quote c
  | half h => '\\' :: 'u' :: hex 4 h.code

namespace Loose

/-- A loose text in quotes. -/
def quoted (t : Loose) : String :=
  let quote := quoteFor (joined t.points)
  String.ofList (quote :: t.points.flatMap (Point.escaped quote) ++ [quote])

/-- A loose text as far as characters can show it. -/
def shown (t : Loose) : String :=
  String.ofList (joined t.points)

end Loose

end Clearance.Text
