import Clearance.Decimal.Reading

/-! Octets that are written out as pairs of hexadecimal digits. -/
namespace Clearance.Text

/-- Whether a character may stand between two octets. -/
def isGap (c : Char) : Bool :=
  c == ' ' || (0x09 ≤ c.toNat && c.toNat ≤ 0x0d)

/-- The octets that a text writes; blanks may stand between them. -/
def octets? : List Char → Option (List UInt8)
  | [] => some []
  | [c] => if isGap c then some [] else none
  | a :: b :: rest =>
    if isGap a then octets? (b :: rest)
    else do
      let n ← Decimal.readNat? 16 [a, b]
      return UInt8.ofNat n :: (← octets? rest)

end Clearance.Text
