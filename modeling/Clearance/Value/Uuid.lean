import Clearance.Decimal.Reading
import Clearance.Text.Quoted
import Clearance.Value

/-! Unique identifiers, read from any of their writings and kept in one: five
groups of hexadecimal digits with hyphens between them. -/
namespace Clearance.Value

/-- A text without a piece wherever it stands, when so many characters are to be
passed over first. -/
def without (piece : List Char) : Nat → List Char → List Char
  | _, [] => []
  | skip + 1, _ :: rest => without piece skip rest
  | 0, c :: rest =>
    if piece.isPrefixOf (c :: rest) then without piece (piece.length - 1) rest
    else c :: without piece 0 rest

/-- Whether a character is a brace. -/
def isBrace (c : Char) : Bool :=
  c == '\x7b' || c == '\x7d'

/-- The digits of an identifier, without the marks that may stand around and among them. -/
def writtenDigits (cs : List Char) : List Char :=
  let bare := without "uuid:".toList 0 (without "urn:".toList 0 cs)
  (((bare.dropWhile isBrace).reverse.dropWhile isBrace).reverse).filter (· != '-')

/-- Groups of the given sizes with hyphens between them; what is left comes last. -/
def grouped : List Nat → List Char → List Char
  | [], cs => cs
  | size :: rest, cs => cs.take size ++ '-' :: grouped rest (cs.drop size)

/-- The identifier that a text writes, which has to have 32 digits. -/
def uuid? (s : String) : Option Value := do
  let digits := writtenDigits s.toList
  if digits.length != 32 then none
  else do
    let n ← Decimal.readInt? 16 digits
    if n < 0 then none
    else some (uuid (String.ofList (grouped [8, 4, 4, 4] (Text.hex 32 n.toNat))))

end Clearance.Value
