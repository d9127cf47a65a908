import Clearance.Decimal.Binary64
import Clearance.Text.Blank
import Clearance.Text.Digit

/-! Reading numbers that are written out: integers in a base, and decimals with
a point and an exponent. Digits of every script are read, and blanks around a
number are ignored. -/
namespace Clearance.Decimal

/-- Whether a number starts with a minus sign, and the number behind its sign. -/
def splitSign : List Char → Bool × List Char
  | '-' :: rest => (true, rest)
  | '+' :: rest => (false, rest)
  | cs => (false, cs)

/-- The worth of a digit in bases up to sixteen. -/
def digitIn? (base : Nat) (c : Char) : Option Nat :=
  let worth :=
    if '0' ≤ c && c ≤ '9' then c.toNat - 0x30
    else if 'a' ≤ c && c ≤ 'f' then c.toNat - 0x61 + 10
    else if 'A' ≤ c && c ≤ 'F' then c.toNat - 0x41 + 10
    else 16
  if worth < base then some worth else none

/-- The number that digits spell; every character must be a digit. -/
def readNat? (base : Nat) (cs : List Char) : Option Nat :=
  if cs.isEmpty then none
  else (cs.mapM (digitIn? base)).map fun ds => ds.foldl (fun n d => n * base + d) 0

/-- Whether a character may stand around a number: a blank, but no separator of ASCII. -/
def isPadding (c : Char) : Bool :=
  Text.isBlank c && !(0x1c ≤ c.toNat && c.toNat ≤ 0x1f)

/-- A number without the blanks around it, in the digits of ASCII. -/
def trimmed (cs : List Char) : List Char :=
  (((cs.dropWhile isPadding).reverse.dropWhile isPadding).reverse).map Text.plainDigit

/-- A number behind the mark of its base, which may be left out. -/
def withoutBaseMark (base : Nat) : List Char → List Char
  | '0' :: c :: rest =>
    let marks : List Char :=
      if base = 2 then ['b', 'B'] else if base = 8 then ['o', 'O']
      else if base = 16 then ['x', 'X'] else []
    if marks.contains c then rest else '0' :: c :: rest
  | cs => cs

/-- The most digits that a number in base ten may have. -/
def mostDigits : Nat := 4300

/-- An integer in a base. -/
def readInt? (base : Nat) (cs : List Char) : Option Int := do
  let (negative, digits) := splitSign (trimmed cs)
  if base = 10 && mostDigits < digits.length then none
  else do
    let n ← readNat? base (withoutBaseMark base digits)
    pure (if negative then -(n : Int) else n)

/-- The exponent behind the mantissa of a decimal. -/
def readExponent? : List Char → Option Int
  | [] => some 0
  | c :: rest => do
    if c != 'e' && c != 'E' then none
    else do
      let (negative, digits) := splitSign rest
      let n ← readNat? 10 digits
      pure (if negative then -(n : Int) else n)

/-- A decimal without sign: digits with a point among them, and an exponent. -/
def readUnsigned? (negative : Bool) (cs : List Char) : Option Binary64 := do
  let whole := cs.takeWhile Char.isDigit
  let rest := cs.dropWhile Char.isDigit
  let (places, rest) :=
    match rest with
    | '.' :: rest => (rest.takeWhile Char.isDigit, rest.dropWhile Char.isDigit)
    | rest => ([], rest)
  let coefficient ← readNat? 10 (whole ++ places)
  let exponent ← readExponent? rest
  pure (Binary64.ofDecimal negative coefficient (exponent - places.length))

/-- A floating-point number: a decimal, an infinity or NaN. -/
def readFloat? (cs : List Char) : Option Binary64 :=
  let (negative, rest) := splitSign (trimmed cs)
  let word := String.ofList (rest.map Char.toLower)
  if word == "inf" || word == "infinity" then some (Binary64.infinity negative)
  else if word == "nan" then some Binary64.nan
  else readUnsigned? negative rest

end Clearance.Decimal
