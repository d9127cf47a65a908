import Clearance.Decimal.Binary64

/-! The shortest decimal that reads back as a given floating-point number.

Of the decimals with the fewest digits that round to the number the nearest
is taken, of two equally near ones the one whose last digit is even. -/
namespace Clearance.Decimal

/-- A decimal `coefficient · 10 ^ exponent`. -/
structure Scientific where
  coefficient : Nat
  exponent : Int

/-- The digits of a number in base ten. -/
def digits (n : Nat) : List Char :=
  Nat.toDigits 10 n

/-- The exponent of the leading decimal digit of a positive ratio. -/
def leadingExponent (num den : Nat) : Int :=
  let guess : Int := (digits num).length - (digits den).length
  let enough :=
    if 0 ≤ guess then den * Nat.pow 10 guess.toNat ≤ num else den ≤ num * Nat.pow 10 (-guess).toNat
  if enough then guess else guess - 1

/-- The reals that round to a positive finite number: everything between
`low / den` and `high / den` around `mid / den`, the ends only when `closed`. -/
structure Interval where
  low : Nat
  mid : Nat
  high : Nat
  den : Nat
  closed : Bool

/-- The reals that round to a number. The gap below a power of two is half of
the gap above it. -/
def Interval.around (x : Binary64) : Interval :=
  let m := x.significand
  let below := if m = Nat.pow 2 52 && x.exponent > -1074 then 1 else 2
  let unit := x.exponent - 2
  let scale := if 0 ≤ unit then Nat.pow 2 unit.toNat else 1
  let den := if 0 ≤ unit then 1 else Nat.pow 2 (-unit).toNat
  ⟨(4 * m - below) * scale, 4 * m * scale, (4 * m + 2) * scale, den, m % 2 == 0⟩

/-- Whether `c · up / down` lies in the interval. -/
def Interval.holds (i : Interval) (up down c : Nat) : Bool :=
  let point := c * up * i.den
  if i.closed then i.low * down ≤ point && point ≤ i.high * down
  else i.low * down < point && point < i.high * down

/-- The best point of the grid `10 ^ exponent` inside the interval, if one lies there. -/
def Interval.onGrid? (i : Interval) (exponent : Int) : Option Scientific :=
  let up := if 0 ≤ exponent then Nat.pow 10 exponent.toNat else 1
  let down := if 0 ≤ exponent then 1 else Nat.pow 10 (-exponent).toNat
  let c := i.mid * down / (i.den * up)
  let nearer :=
    match compare (2 * i.mid * down) ((2 * c + 1) * up * i.den) with
    | .lt => c
    | .gt => c + 1
    | .eq => c + c % 2
  if i.holds up down nearer then some ⟨nearer, exponent⟩
  else if i.holds up down c then some ⟨c, exponent⟩
  else if i.holds up down (c + 1) then some ⟨c + 1, exponent⟩
  else none

/-- The shortest decimal of a positive finite number. Seventeen digits always suffice. -/
def shortest (x : Binary64) : Scientific :=
  let i := Interval.around x
  let lead := leadingExponent i.mid i.den
  let found := (List.range 17).findSome? fun (n : Nat) => i.onGrid? (lead - n)
  found.getD ⟨0, 0⟩

/-- The texts of the numbers that have no digits. -/
structure SpecialNames where
  nan : String
  infinity : String

/-- A positive decimal from its digits and the exponent of the leading one:
positional from `10 ^ -4` to below `10 ^ 16`, with at least one place after the
point, else with an exponent of at least two digits. -/
def layOut (ds : List Char) (lead : Int) : List Char :=
  if -4 ≤ lead && lead < 16 then
    if lead < 0 then '0' :: '.' :: List.replicate (-lead - 1).toNat '0' ++ ds
    else
      let whole := ds.take (lead.toNat + 1)
      let places := ds.drop (lead.toNat + 1)
      whole ++ List.replicate (lead.toNat + 1 - ds.length) '0' ++
        '.' :: (if places.isEmpty then ['0'] else places)
  else
    let power := digits lead.natAbs
    let mantissa :=
      match ds with
      | [] => []
      | d :: [] => [d]
      | d :: rest => d :: '.' :: rest
    mantissa ++ 'e' :: (if lead < 0 then '-' else '+') ::
      List.replicate (2 - power.length) '0' ++ power

/-- The text of a number: its shortest decimal. -/
def text (special : SpecialNames) (x : Binary64) : String :=
  if x.isNaN then special.nan
  else
    let sign := if x.isNegative then "-" else ""
    if x.isInfinite then sign ++ special.infinity
    else if x.isZero then sign ++ "0.0"
    else
      let s := shortest x
      let all := digits s.coefficient
      let lead := s.exponent + all.length - 1
      let ds := (all.reverse.dropWhile (· == '0')).reverse
      sign ++ String.ofList (layOut ds lead)

end Clearance.Decimal
