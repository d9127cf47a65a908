import Clearance.Value.Equality

/-! Order of values: numbers by worth, texts by code point, sequences place by
place. Values of different kinds have no order, and a list that holds such a
pair cannot be sorted. -/
namespace Clearance.Value

/-! ## Which values have an order -/

/-- Whether two values without parts can be put before or behind each other. -/
def leavesOrdered (a b : Value) : Bool :=
  (a.number?.isSome && b.number?.isSome) || (a.text?.isSome && b.text?.isSome) ||
    match a, b with
    | bytes _, bytes _ => true
    | uuid _, uuid _ => true
    | date .., date .. => true
    | moment x, moment y => x.offset.isSome == y.offset.isSome
    | _, _ => false

mutual

/-- Whether two values can be put before or behind each other. -/
def ordered : Value → Value → Bool
  | list xs, list ys => allOrdered xs ys
  | tuple xs, tuple ys => allOrdered xs ys
  | a, b => leavesOrdered a b

/-- Whether two lists can: that depends on the first place where they differ. -/
def allOrdered : List Value → List Value → Bool
  | x :: xs, y :: ys => if same x y then allOrdered xs ys else ordered x y
  | _, _ => true

end

/-- Whether every two values of a list have an order. Texts always do. -/
def comparable (items : List Value) : Bool :=
  items.all (·.text?.isSome) || pairwise items
where
  /-- Whether each value has an order with all behind it. -/
  pairwise : List Value → Bool
    | [] => true
    | x :: xs => xs.all (ordered x) && pairwise xs

/-! ## The order -/

/-- A number for each kind of values; values of different kinds have no order. -/
def rank : Value → Nat
  | null => 0
  | bool _ | int _ | float _ => 1
  | text _ | level _ => 2
  | bytes _ => 3
  | list _ => 4
  | tuple _ => 5
  | uuid _ => 6
  | date .. => 7
  | moment m => if m.offset.isSome then 8 else 9
  | forbidden => 10
  | declined => 11
  | thing _ => 12
  | record .. => 13
  | credential .. => 14
  | fieldPolicy .. => 15
  | _ => 16

/-- Order of numbers by worth; those without any come last. -/
def Number.order (x y : Number) : Ordering :=
  match x.compare? y, x, y with
  | some o, _, _ => o
  | none, .float a, .float b =>
    if a.isNaN && b.isNaN then compare a.bits b.bits else if a.isNaN then .gt else .lt
  | none, .float _, _ => .gt
  | none, _, _ => .lt

/-- Order of values without parts, in which every two values have a place. -/
def orderLeaves (a b : Value) : Ordering :=
  match a.number?, b.number?, a.text?, b.text? with
  | some x, some y, _, _ => x.order y
  | _, _, some s, some t => compare s t
  | _, _, _, _ =>
    match a, b with
    | bytes x, bytes y => compare (x.map UInt8.toNat) (y.map UInt8.toNat)
    | uuid s, uuid t => compare s t
    | date y m d, date y' m' d' => compare [y, m, d] [y', m', d']
    | moment x, moment y => (compare a.rank b.rank).then (compare x.instant y.instant)
    | thing i, thing j => compare i j
    | record i _, record j _ => compare i j
    | a, b => compare a.rank b.rank

mutual

/-- An order of all values that can be keys. It keeps equal ones together. -/
def order : Value → Value → Ordering
  | text s, text t => compare s t
  | list xs, list ys => orderAll xs ys
  | tuple xs, tuple ys => orderAll xs ys
  | credential n l d i ib s so, credential n' l' d' i' ib' s' so' =>
    [order n n', orderCaptions l l', orderCaptions d d', order i i', order ib ib', order s s',
      order so so'].foldr Ordering.then .eq
  | fieldPolicy f v c e, fieldPolicy f' v' c' e' =>
    [order f f', order v v', order c c', order e e'].foldr Ordering.then .eq
  | a, b => orderLeaves a b

/-- Order of two captions, those with halves of characters behind the others. -/
def orderCaptions : Caption Value → Caption Value → Ordering
  | .given v, .given w => order v w
  | .loose t, .loose u => compare (t.points.map Text.Point.code) (u.points.map Text.Point.code)
  | .given _, .loose _ => .lt
  | .loose _, .given _ => .gt

/-- Order of two lists by the first place where they differ, else by length. -/
def orderAll : List Value → List Value → Ordering
  | [], [] => .eq
  | [], _ :: _ => .lt
  | _ :: _, [] => .gt
  | x :: xs, y :: ys => (order x y).then (orderAll xs ys)

end

instance : Ord Value := ⟨order⟩

@[simp] theorem order_text (s t : String) : order (text s) (text t) = compare s t := rfl

/-- Whether sorting leaves a value in front of another. A number without worth
stays where it is among numbers. -/
def staysBefore (a b : Value) : Bool :=
  match a.number?, b.number? with
  | some x, some y => x.compare? y != some .gt
  | _, _ => order a b != .gt

/-- The list in ascending order, if it can be sorted. -/
def sort? (items : List Value) : Option (List Value) :=
  if comparable items then some (items.mergeSort staysBefore) else none

end Clearance.Value
