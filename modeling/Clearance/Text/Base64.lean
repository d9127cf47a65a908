/-! Base 64: four characters of six bits each for three octets. Characters that
do not belong to the alphabet are skipped, and everything behind complete
padding is ignored. -/
namespace Clearance.Text

/-- The six bits that a character stands for. -/
def sextet? (c : Char) : Option Nat :=
  let n := c.toNat
  if 'A' ≤ c && c ≤ 'Z' then some (n - 0x41)
  else if 'a' ≤ c && c ≤ 'z' then some (n - 0x61 + 26)
  else if '0' ≤ c && c ≤ '9' then some (n - 0x30 + 52)
  else if c == '+' then some 62
  else if c == '/' then some 63
  else none

/-- The octets of a text. `quad` characters of the current group have been read
and have left `bits` over; `pads` paddings stand behind them. -/
def decodeBase64From (quad bits pads : Nat) : List Char → Option (List UInt8)
  | [] => if quad = 0 then some [] else none
  | c :: rest =>
    if c == '=' then
      if 2 ≤ quad && 4 ≤ quad + pads + 1 then some []
      else decodeBase64From quad bits (if 2 ≤ quad then pads + 1 else pads) rest
    else
      match sextet? c with
      | none => decodeBase64From quad bits pads rest
      | some n =>
        match quad with
        | 0 => decodeBase64From 1 n 0 rest
        | 1 => (UInt8.ofNat (bits * 4 + n / 16) :: ·) <$> decodeBase64From 2 (n % 16) 0 rest
        | 2 => (UInt8.ofNat (bits * 16 + n / 4) :: ·) <$> decodeBase64From 3 (n % 4) 0 rest
        | _ => (UInt8.ofNat (bits * 64 + n) :: ·) <$> decodeBase64From 0 0 0 rest

/-- The octets that a text stands for. -/
def decodeBase64? (text : List Char) : Option (List UInt8) :=
  decodeBase64From 0 0 0 text

end Clearance.Text
