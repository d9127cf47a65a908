/-! Binary floating-point numbers of 64 bits, as exact ratios of integers.

A finite number is `± significand · 2 ^ exponent`. Reading a decimal rounds to
the nearest such number, a tie to the even significand. -/
namespace Clearance

/-- A floating-point number, by its bits. -/
structure Binary64 where
  bits : UInt64
deriving DecidableEq

namespace Binary64

/-- The sign bit. -/
def isNegative (x : Binary64) : Bool :=
  Nat.pow 2 63 ≤ x.bits.toNat

/-- The eleven bits of the biased exponent. -/
def exponentField (x : Binary64) : Nat :=
  x.bits.toNat / Nat.pow 2 52 % 2048

/-- The 52 bits behind the leading one. -/
def fraction (x : Binary64) : Nat :=
  x.bits.toNat % Nat.pow 2 52

def isNaN (x : Binary64) : Bool :=
  x.exponentField == 2047 && x.fraction != 0

def isInfinite (x : Binary64) : Bool :=
  x.exponentField == 2047 && x.fraction == 0

def isFinite (x : Binary64) : Bool :=
  x.exponentField != 2047

/-- The significand of a finite number. -/
def significand (x : Binary64) : Nat :=
  if x.exponentField = 0 then x.fraction else Nat.pow 2 52 + x.fraction

/-- The exponent of a finite number. -/
def exponent (x : Binary64) : Int :=
  (max x.exponentField 1 : Nat) - 1075

/-- Zero of either sign. -/
def isZero (x : Binary64) : Bool :=
  x.exponentField == 0 && x.fraction == 0

/-- The distance from zero of a finite number, as numerator and denominator. -/
def magnitude (x : Binary64) : Nat × Nat :=
  if 0 ≤ x.exponent then (x.significand * Nat.pow 2 x.exponent.toNat, 1)
  else (x.significand, Nat.pow 2 (-x.exponent).toNat)

/-- A finite number as a signed numerator and a denominator. -/
def ratio? (x : Binary64) : Option (Int × Nat) :=
  if x.isFinite then
    let (num, den) := x.magnitude
    some (if x.isNegative then -num else num, den)
  else none

/-- The integer that a number equals, if it is integral. -/
def toInt? (x : Binary64) : Option Int :=
  match x.ratio? with
  | some (num, den) => if num % den = 0 then some (num / den) else none
  | none => none

/-- The number with the fraction cut off, for a finite number. -/
def truncate? (x : Binary64) : Option Int :=
  x.ratio?.map fun (num, den) => num.tdiv den

/-- The bits of a magnitude below `2 ^ 63`, with a sign. -/
def ofMagnitudeBits (negative : Bool) (bits : Nat) : Binary64 :=
  ⟨UInt64.ofNat (if negative then Nat.pow 2 63 + bits else bits)⟩

def zero (negative : Bool) : Binary64 :=
  ofMagnitudeBits negative 0

def infinity (negative : Bool) : Binary64 :=
  ofMagnitudeBits negative (2047 * Nat.pow 2 52)

/-- One of the numbers that have no worth. They differ by the number in their last bits. -/
def nanNumbered (number : Nat) : Binary64 :=
  ofMagnitudeBits false (2047 * Nat.pow 2 52 + Nat.pow 2 51 + number % Nat.pow 2 51)

def nan : Binary64 :=
  nanNumbered 0

/-- A quotient rounded to the nearest integer, a tie to the even one. -/
def roundEven (num den : Nat) : Nat :=
  let whole := num / den
  let twice := 2 * (num % den)
  if twice < den then whole
  else if den < twice then whole + 1
  else whole + whole % 2

/-- The exponent of the leading bit of a positive ratio. -/
def leadingExponent (num den : Nat) : Int :=
  let guess : Int := num.log2 - den.log2
  let enough :=
    if 0 ≤ guess then den * Nat.pow 2 guess.toNat ≤ num else den ≤ num * Nat.pow 2 (-guess).toNat
  if enough then guess else guess - 1

/-- The number nearest to a ratio. -/
def ofRatio (negative : Bool) (num den : Nat) : Binary64 :=
  if num = 0 then zero negative
  else
    let q := max (leadingExponent num den - 52) (-1074)
    let m := if 0 ≤ q then roundEven num (den * Nat.pow 2 q.toNat)
      else roundEven (num * Nat.pow 2 (-q).toNat) den
    let bits := if m < Nat.pow 2 52 then m else (q + 1074).toNat * Nat.pow 2 52 + m
    if 2047 * Nat.pow 2 52 ≤ bits then infinity negative else ofMagnitudeBits negative bits

/-- The number nearest to `coefficient · 10 ^ exponent`. -/
def ofDecimal (negative : Bool) (coefficient : Nat) (exponent : Int) : Binary64 :=
  if coefficient = 0 then zero negative
  else if 400 < exponent then infinity negative
  else if 0 ≤ exponent then ofRatio negative (coefficient * Nat.pow 10 exponent.toNat) 1
  else if (coefficient.log2 : Int) + 3 * exponent < -1200 then zero negative
  else ofRatio negative coefficient (Nat.pow 10 (-exponent).toNat)

/-- The number nearest to an integer. -/
def ofInt (n : Int) : Binary64 :=
  ofRatio (n < 0) n.natAbs 1

/-- The sum, rounded once. -/
def add (x y : Binary64) : Binary64 :=
  ⟨(Float.ofBits x.bits + Float.ofBits y.bits).toBits⟩

/-- The product, rounded once. -/
def mul (x y : Binary64) : Binary64 :=
  ⟨(Float.ofBits x.bits * Float.ofBits y.bits).toBits⟩

/-- The number with the other sign. -/
def negate (x : Binary64) : Binary64 :=
  ⟨x.bits ^^^ 0x8000000000000000⟩

/-- Order of two signed ratios with positive denominators. -/
def compareRatio (a b : Int × Nat) : Ordering :=
  compare (a.1 * b.2) (b.1 * a.2)

/-- Order of two numbers; NaN has none. -/
def compare? (x y : Binary64) : Option Ordering :=
  if x.isNaN || y.isNaN then none
  else
    match x.ratio?, y.ratio? with
    | some a, some b => some (compareRatio a b)
    | none, some _ => some (if x.isNegative then .lt else .gt)
    | some _, none => some (if y.isNegative then .gt else .lt)
    | none, none => some (compare y.isNegative.toNat x.isNegative.toNat)

/-- Order of a number and an integer; NaN has none. -/
def compareInt? (x : Binary64) (n : Int) : Option Ordering :=
  if x.isNaN then none
  else
    match x.ratio? with
    | some a => some (compareRatio a (n, 1))
    | none => some (if x.isNegative then .lt else .gt)

end Binary64

end Clearance
