import Clearance.Failure
import Clearance.Value.Equality

/-! The items of values by position or key. -/
namespace Clearance.Value

/-- An integer that counts positions: a truth value counts as zero or one. -/
def position? : Value → Option Int
  | int n => some n
  | bool b => some (if b then 1 else 0)
  | _ => none

/-- The item at a position; a negative one counts from the end. -/
def itemAt (items : List Value) (position : Int) : Except Failure Value :=
  let n := if position < 0 then position + items.length else position
  if n < 0 then .error .missingPlace
  else
    match items[n.toNat]? with
    | some v => .ok v
    | none => .error .missingPlace

/-- The item of a value at a key: that of a mapping, or the one at a position. -/
def item (v key : Value) : Except Failure Value :=
  match v.entries? with
  | some entries =>
    if !key.hashable then .error .mismatch
    else
      match at? key entries with
      | some found => .ok found
      | none => .error .missingKey
  | none =>
    match v.bare, key.position?, v.members? with
    | .set _, _, _ => .error .mismatch
    | _, some position, some items => itemAt items position
    | _, _, _ => .error .mismatch

end Clearance.Value
