import Clearance.Value

/-! Equality of values, and what rests on it: membership, duplicates and
mappings.

Numbers are equal when they have the same worth, whatever their kind, so that
one, one point nought and true are the same key. A value that is no number of
any worth is equal to itself alone, which its bits tell; so are records and other
objects, which have a number for it. Moments are equal when they are the same
instant. -/
namespace Clearance

namespace Value

/-- A value as a number. -/
inductive Number where
  | int (n : Int)
  | float (x : Binary64)

/-- The number that a value stands for, if it is one. -/
def number? : Value → Option Number
  | bool b => some (.int (if b then 1 else 0))
  | int n => some (.int n)
  | float x => some (.float x)
  | _ => none

/-- Order of two numbers by worth; NaN has none. -/
def Number.compare? : Number → Number → Option Ordering
  | .int a, .int b => some (compare a b)
  | .int a, .float y => (y.compareInt? a).map Ordering.swap
  | .float x, .int b => x.compareInt? b
  | .float x, .float y => x.compare? y

/-- Equality of values without parts. -/
def sameLeaf (a b : Value) : Bool :=
  match a.number?, b.number? with
  | some (.float x), some (.float y) => x == y || x.compare? y == some .eq
  | some x, some y => x.compare? y == some .eq
  | none, none =>
    match a.text?, b.text? with
    | some s, some t => s == t
    | none, none =>
      match a, b with
      | null, null => true
      | bytes x, bytes y => x == y
      | uuid s, uuid t => s == t
      | date y m d, date y' m' d' => y == y' && m == m' && d == d'
      | moment x, moment y => x.same y
      | forbidden, forbidden => true
      | declined, declined => true
      | thing i, thing j => i == j
      | record i _, record j _ => i == j
      | _, _ => false
    | _, _ => false
  | _, _ => false

/-- Equality of parts that are compared one after the other. -/
def both (first rest : Option Bool) : Option Bool :=
  match first with
  | some true => rest
  | answer => answer

mutual

/-- Equality of values. It cannot be told of two knots of one kind that are not
the same, for each holds itself in the same place. -/
def equal? : Value → Value → Option Bool
  | list xs, list ys => if xs.length == ys.length then equalAll? xs ys else some false
  | tuple xs, tuple ys => if xs.length == ys.length then equalAll? xs ys else some false
  | set xs, set ys => some (xs.length == ys.length && within xs ys)
  | dict xs, dict ys => if xs.length == ys.length then equalEntries? xs ys else some false
  | credential n l d i ib s so, credential n' l' d' i' ib' s' so' =>
    [equal? n n', equalCaptions? l l', equalCaptions? d d', equal? i i', equal? ib ib', equal? s s',
      equal? so so'].foldr both (some true)
  | fieldPolicy f v c e, fieldPolicy f' v' c' e' =>
    [equal? f f', equal? v v', equal? c c', equal? e e'].foldr both (some true)
  | knot i ms m, knot j ns n =>
    if i == j && m == n then some true
    else if typeName (knot i ms m) == typeName (knot j ns n) then none
    else some false
  | a, b => some (sameLeaf a b)

/-- Equality of captions. -/
def equalCaptions? : Caption Value → Caption Value → Option Bool
  | .given v, .given w => equal? v w
  | .loose t, .loose u => some (t == u)
  | _, _ => some false

/-- Equality of lists of one length, place by place. -/
def equalAll? : List Value → List Value → Option Bool
  | [], _ => some true
  | _, [] => some true
  | x :: xs, y :: ys => both (equal? x y) (equalAll? xs ys)

/-- Whether every member of the first list equals one of the second. -/
def within : List Value → List Value → Bool
  | [], _ => true
  | x :: xs, ys => ys.any (fun y => equal? x y == some true) && within xs ys

/-- Whether every entry of the first mapping equals one of the second. -/
def equalEntries? : List (Value × Value) → List (Value × Value) → Option Bool
  | [], _ => some true
  | (k, v) :: xs, ys =>
    match ys.find? fun e => equal? k e.1 == some true with
    | none => some false
    | some e => both (equal? v e.2) (equalEntries? xs ys)

end

/-- Whether two values are equal as far as that can be told. -/
def same (a b : Value) : Bool :=
  equal? a b == some true

/-- Whether every member of the first list is in the second. -/
def sameMembers (xs ys : List Value) : Bool :=
  xs.all fun x => ys.any (same x)

instance : BEq Value := ⟨same⟩

@[simp] theorem beq_eq_same (a b : Value) : (a == b) = same a b := rfl

@[simp] theorem same_text (s t : String) : same (text s) (text t) = (s == t) := by
  simp [same, equal?, sameLeaf, number?, text?]

@[simp] theorem same_null : same null null = true := by
  simp [same, equal?, sameLeaf, number?, text?]

mutual

/-- Whether a value can be a key of a mapping or a member of a set. -/
def hashable : Value → Bool
  | list _ => false
  | set _ => false
  | dict _ => false
  | knot .. => false
  | tuple items => allHashable items
  | credential n l d i ib s so =>
    hashable n && captionHashable l && captionHashable d && hashable i && hashable ib &&
      hashable s && hashable so
  | fieldPolicy f v c e => hashable f && hashable v && hashable c && hashable e
  | _ => true

/-- Whether a caption can be part of a key. -/
def captionHashable : Caption Value → Bool
  | .given v => hashable v
  | .loose _ => true

/-- Whether all values of a list can be keys. -/
def allHashable : List Value → Bool
  | [] => true
  | x :: xs => hashable x && allHashable xs

end

@[simp] theorem hashable_text (s : String) : hashable (text s) = true := rfl

/-- Whether a list has a member equal to a value. -/
def memberOf (v : Value) (items : List Value) : Bool :=
  items.any (same v)

/-- The list without later duplicates, after members that were seen already. -/
def distinctFrom (seen : List Value) : List Value → List Value
  | [] => []
  | x :: xs => if memberOf x seen then distinctFrom seen xs else x :: distinctFrom (x :: seen) xs

/-- The list without later duplicates. -/
def distinct (items : List Value) : List Value :=
  distinctFrom [] items

/-- The distinct members of a value in order, if it can be walked through and
all its members can be keys. -/
def distinctMembers? (v : Value) : Option (List Value) :=
  match v.members? with
  | some items => if allHashable items then some (distinct items) else none
  | none => none

/-- A mapping after an entry is put: an old key keeps its place. -/
def put (key v : Value) : List (Value × Value) → List (Value × Value)
  | [] => [(key, v)]
  | e :: rest => if same e.1 key then (e.1, v) :: rest else e :: put key v rest

/-- The value at a key. -/
def at? (key : Value) (entries : List (Value × Value)) : Option Value :=
  (entries.find? fun e => same e.1 key).map Prod.snd

/-- The mapping that results from putting entries one after the other, if all
keys can be keys. -/
def ofEntries? (entries : List (Value × Value)) : Option Value :=
  if allHashable (entries.map Prod.fst) then
    some (dict (entries.foldl (fun m e => put e.1 e.2 m) []))
  else none

end Value

end Clearance
