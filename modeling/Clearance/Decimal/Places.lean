import Clearance.Decimal.Shortest

/-! Decimals with a given number of places. A number is rounded once, to the
nearest decimal of the wanted form, a tie to the even digit. -/
namespace Clearance.Decimal

/-- A whole number of digits and places behind a point. A point without places
behind it is kept only on demand. -/
def withPoint (keepPoint : Bool) (whole places : List Char) : List Char :=
  if places.isEmpty then if keepPoint then whole ++ ['.'] else whole
  else whole ++ '.' :: places

/-- The digits of a number with at least one in front of so many places. -/
def paddedDigits (places n : Nat) : List Char :=
  let ds := digits n
  List.replicate (places + 1 - ds.length) '0' ++ ds

/-- A ratio with a fixed number of places behind the point. -/
def fixedText (keepPoint : Bool) (places num den : Nat) : List Char :=
  let ds := paddedDigits places (Binary64.roundEven (num * Nat.pow 10 places) den)
  withPoint keepPoint (ds.take (ds.length - places)) (ds.drop (ds.length - places))

/-- A ratio rounded to some digits behind the leading one: all digits as one
number, and the exponent of the leading one. -/
def significant (places num den : Nat) : Nat × Int :=
  if num = 0 then (0, 0)
  else
    let lead := leadingExponent num den
    let shift := places - lead
    let n :=
      if 0 ≤ shift then Binary64.roundEven (num * Nat.pow 10 shift.toNat) den
      else Binary64.roundEven num (den * Nat.pow 10 (-shift).toNat)
    if places + 1 < (digits n).length then (n / 10, lead + 1) else (n, lead)

/-- An exponent of ten with a sign and at least two digits. -/
def exponentText (mark : Char) (exponent : Int) : List Char :=
  let power := digits exponent.natAbs
  mark :: (if exponent < 0 then '-' else '+') :: List.replicate (2 - power.length) '0' ++ power

/-- A ratio with an exponent and a fixed number of places. -/
def exponentialText (keepPoint : Bool) (mark : Char) (places num den : Nat) : List Char :=
  let (n, exponent) := significant places num den
  let ds := paddedDigits places n
  withPoint keepPoint (ds.take 1) (ds.drop 1) ++ exponentText mark exponent

/-- Digits without zeros at their end. -/
def withoutZeros (ds : List Char) : List Char :=
  (ds.reverse.dropWhile (· == '0')).reverse

/-- A ratio with a number of significant digits: positional for small exponents,
else with an exponent. Zeros at the end are kept only on demand. -/
def generalText (keepZeros : Bool) (mark : Char) (count num den : Nat) : List Char :=
  let places := max count 1 - 1
  let (n, exponent) := significant places num den
  let ds := paddedDigits places n
  let shown (places : List Char) := if keepZeros then places else withoutZeros places
  if exponent < -4 || (places : Int) < exponent then
    withPoint keepZeros (ds.take 1) (shown (ds.drop 1)) ++ exponentText mark exponent
  else if exponent < 0 then
    withPoint keepZeros ['0'] (shown (List.replicate (-exponent - 1).toNat '0' ++ ds))
  else
    let whole := exponent.toNat + 1
    withPoint keepZeros (ds.take whole) (shown (ds.drop whole))

end Clearance.Decimal
