/-! UTF-8: the only reading of octets as text.

Overlong forms, surrogates, values beyond U+10FFFF and truncated sequences
are refused. -/
namespace Clearance.Text

/-- The six payload bits of a continuation octet. -/
def continuation? (b : UInt8) : Option Nat :=
  if 0x80 ≤ b.toNat && b.toNat < 0xc0 then some (b.toNat - 0x80) else none

/-- The character with a code point, if there is one and it needs that many octets. -/
def charFrom? (least code : Nat) : Option Char :=
  if h : least ≤ code ∧ code.isValidChar then some (Char.ofNatAux code h.2) else none

/-- The text that octets stand for. -/
def decodeUtf8? : List UInt8 → Option (List Char)
  | [] => some []
  | a :: rest =>
    if a.toNat < 0x80 then (Char.ofNat a.toNat :: ·) <$> decodeUtf8? rest
    else if a.toNat < 0xc2 then none
    else if a.toNat < 0xe0 then
      match rest with
      | b :: rest => do
        let x ← continuation? b
        let c ← charFrom? 0x80 ((a.toNat - 0xc0) * 64 + x)
        (c :: ·) <$> decodeUtf8? rest
      | _ => none
    else if a.toNat < 0xf0 then
      match rest with
      | b :: c :: rest => do
        let x ← continuation? b
        let y ← continuation? c
        let d ← charFrom? 0x800 (((a.toNat - 0xe0) * 64 + x) * 64 + y)
        (d :: ·) <$> decodeUtf8? rest
      | _ => none
    else if a.toNat < 0xf5 then
      match rest with
      | b :: c :: d :: rest => do
        let x ← continuation? b
        let y ← continuation? c
        let z ← continuation? d
        let e ← charFrom? 0x10000 ((((a.toNat - 0xf0) * 64 + x) * 64 + y) * 64 + z)
        (e :: ·) <$> decodeUtf8? rest
      | _ => none
    else none

end Clearance.Text
