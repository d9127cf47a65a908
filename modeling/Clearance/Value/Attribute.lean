import Clearance.Decimal.Reading
import Clearance.Run

/-! The attributes of values.

A record is asked for an attribute by name. Objects with attributes of their own
answer with them; every other value has the parts and the operations of its
kind. A mapping is asked for a key instead. -/
namespace Clearance

/-- What a value answers when it is asked for an attribute. -/
inductive Attribute where
  | absent
  | part (v : Value)
  /-- An operation, or something else that is no value. -/
  | operation

namespace Attribute

/-- Whether nothing is there, or null. -/
def isNull : Attribute → Bool
  | absent => true
  | part .null => true
  | _ => false

/-- Whether an attribute equals a value. One that is absent counts as null. -/
def equals (a : Attribute) (v : Value) : Except Failure Bool :=
  match a with
  | absent => Value.null.equals v
  | part w => w.equals v
  | operation => .ok false

end Attribute

namespace Value

/-! ## The names of operations -/

/-- The operations of every value. -/
def commonOperations : String :=
  "__class__ __delattr__ __dir__ __doc__ __eq__ __format__ __ge__ __getattribute__ " ++
  "__getstate__ __gt__ __hash__ __init__ __init_subclass__ __le__ __lt__ __ne__ __new__ " ++
  "__reduce__ __reduce_ex__ __repr__ __setattr__ __sizeof__ __str__ __subclasshook__"

/-- The operations of all numbers. -/
def numberOperations : String :=
  "__abs__ __add__ __bool__ __ceil__ __divmod__ __float__ __floor__ __floordiv__ " ++
  "__getnewargs__ __int__ __mod__ __mul__ __neg__ __pos__ __pow__ __radd__ __rdivmod__ " ++
  "__rfloordiv__ __rmod__ __rmul__ __round__ __rpow__ __rsub__ __rtruediv__ __sub__ " ++
  "__truediv__ __trunc__ as_integer_ratio conjugate"

/-- The further operations of integers. -/
def integerOperations : String :=
  "__and__ __index__ __invert__ __lshift__ __or__ __rand__ __rlshift__ __ror__ __rrshift__ " ++
  "__rshift__ __rxor__ __xor__ bit_count bit_length from_bytes to_bytes"

/-- The operations that texts and octets share. -/
def stringOperations : String :=
  "__add__ __contains__ __getitem__ __getnewargs__ __iter__ __len__ __mod__ __mul__ __rmod__ " ++
  "__rmul__ capitalize center count endswith expandtabs find index isalnum isalpha isascii " ++
  "isdigit islower isspace istitle isupper join ljust lower lstrip maketrans partition " ++
  "removeprefix removesuffix replace rfind rindex rjust rpartition rsplit rstrip split " ++
  "splitlines startswith strip swapcase title translate upper zfill"

/-- The further operations of texts. -/
def textOperations : String :=
  "casefold encode format format_map isdecimal isidentifier isnumeric isprintable"

/-- The operations of lists. -/
def listOperations : String :=
  "__add__ __class_getitem__ __contains__ __delitem__ __getitem__ __iadd__ __imul__ __iter__ " ++
  "__len__ __mul__ __reversed__ __rmul__ __setitem__ append clear copy count extend index " ++
  "insert pop remove reverse sort"

/-- The operations of tuples. -/
def tupleOperations : String :=
  "__add__ __class_getitem__ __contains__ __getitem__ __getnewargs__ __iter__ __len__ __mul__ " ++
  "__rmul__ count index"

/-- The operations of sets. -/
def setOperations : String :=
  "__and__ __class_getitem__ __contains__ __iand__ __ior__ __isub__ __iter__ __ixor__ __len__ " ++
  "__or__ __rand__ __ror__ __rsub__ __rxor__ __sub__ __xor__ add clear copy difference " ++
  "difference_update discard intersection intersection_update isdisjoint issubset issuperset " ++
  "pop remove symmetric_difference symmetric_difference_update union update"

/-- The operations of unique identifiers. -/
def uuidOperations : String :=
  "__int__ __module__ __setstate__ __slots__ bytes bytes_le clock_seq clock_seq_hi_variant " ++
  "clock_seq_low fields is_safe node time time_hi_version time_low time_mid urn variant"

/-- The operations of days. -/
def dateOperations : String :=
  "__add__ __radd__ __rsub__ __sub__ ctime fromisocalendar fromisoformat fromordinal " ++
  "fromtimestamp isocalendar isoformat isoweekday max min replace resolution strftime " ++
  "timetuple today toordinal weekday"

/-- The further operations of moments. -/
def momentOperations : String :=
  "astimezone combine date dst now strptime time timestamp timetz tzname utcfromtimestamp " ++
  "utcnow utcoffset utctimetuple"

/-- The operations of markers and levels. -/
def markerOperations : String :=
  "__copy__ __deepcopy__ __dict__ __module__ __objclass__ _generate_next_value_ _member_map_ " ++
  "_member_names_ _member_type_ _missing_ _new_member_ _sort_order_ _unhashable_values_ " ++
  "_use_args_ _value2member_map_"

/-- The operations of objects with named parts. -/
def partedOperations : String :=
  "__annotations__ __dataclass_fields__ __dataclass_params__ __dict__ __match_args__ __module__"

/-- The operations of a value beside those that every value has. -/
def operations : Value → List String
  | null | declined => ["__bool__"]
  | bool _ | int _ => [numberOperations, integerOperations]
  | float _ => [numberOperations, "__getformat__ fromhex hex is_integer"]
  | text _ => [stringOperations, textOperations]
  | level _ => [stringOperations, textOperations, markerOperations, "_value_repr_"]
  | bytes _ => [stringOperations, "__bytes__ decode fromhex hex"]
  | list _ => [listOperations]
  | tuple _ => [tupleOperations]
  | set _ => [setOperations]
  | uuid _ => [uuidOperations]
  | date .. => [dateOperations]
  | moment m =>
    [dateOperations, momentOperations] ++ if m.offset.isSome then ["tzinfo"] else []
  | forbidden => [markerOperations]
  | thing _ | record .. => ["__dict__ __module__"]
  | credential .. => [partedOperations, "references relation"]
  | fieldPolicy .. => [partedOperations, "is_forbidden requirement"]
  | _ => []

/-! ## The parts of values -/

/-- The hexadecimal digits of a unique identifier. -/
def uuidDigits (s : String) : List Char :=
  s.toList.filter (· != '-')

/-- The version of a unique identifier, if it is of the variant that has versions. -/
def uuidVersion (digits : List Char) : Value :=
  if ['8', '9', 'a', 'b'].contains (digits.getD 16 '0') then
    int ((Decimal.readNat? 16 [digits.getD 12 '0']).getD 0)
  else null

/-- The named parts of a value. -/
def parts : Value → List (String × Value)
  | null | declined => [("__doc__", null)]
  | bool b =>
    let n := int (if b then 1 else 0)
    [("real", n), ("numerator", n), ("imag", int 0), ("denominator", int 1)]
  | int n =>
    [("real", int n), ("numerator", int n), ("imag", int 0), ("denominator", int 1)]
  | float x => [("real", float x), ("imag", float (Binary64.zero false))]
  | list _ | set _ | knot .. => [("__hash__", null)]
  | uuid s =>
    let digits := uuidDigits s
    [("hex", text (String.ofList digits)), ("int", int ((Decimal.readNat? 16 digits).getD 0)),
      ("version", uuidVersion digits), ("__weakref__", null)]
  | date y m d => [("year", int y), ("month", int m), ("day", int d)]
  | moment m =>
    [("year", int m.year), ("month", int m.month), ("day", int m.day), ("hour", int m.hour),
      ("minute", int m.minute), ("second", int m.second), ("microsecond", int m.microsecond),
      ("fold", int 0)] ++ if m.offset.isSome then [] else [("tzinfo", null)]
  | level l =>
    let name := text l.name
    [("name", name), ("value", name), ("_name_", name), ("_value_", name), ("__weakref__", null)] ++
      LogLevel.all.map fun other => (other.name, level other)
  | forbidden =>
    let name := text "FORBIDDEN"
    let value := text "forbidden"
    [("name", name), ("value", value), ("_name_", name), ("_value_", value),
      ("FORBIDDEN", forbidden), ("_value_repr_", null), ("__weakref__", null)]
  | thing _ => [("__doc__", null), ("__weakref__", null)]
  | record _ attributes =>
    attributes ++ [("__doc__", null), ("__weakref__", null)]
  | credential n l d i ib s so =>
    [("name", n), ("label", l.value), ("description", d.value), ("implies", i), ("implied_by", ib),
      ("subrights", s), ("subright_of", so), ("__weakref__", null)]
  | fieldPolicy f v c e =>
    [("field", f), ("view", v), ("create", c), ("edit", e), ("__weakref__", null)]
  | _ => []

/-- The attribute of a value with a name. -/
def attributeNamed (v : Value) (name : String) : Attribute :=
  match v.parts.lookup name with
  | some part => .part part
  | none =>
    if (commonOperations :: v.bare.operations).any fun names =>
        (names.splitOn " ").contains name then
      .operation
    else .absent

/-- What a record says about a key: a mapping the value under it or null, every
other value its attribute. -/
def attributeOf (record key : Value) : Attribute :=
  match record.entries?, key.text? with
  | some entries, _ => .part (orNull (at? key entries))
  | none, some name => record.attributeNamed name
  | none, none => .absent

/-- The failure of an operation that a value does not have. An attribute of that
name cannot be used as an operation. -/
def lacksOperation (v : Value) (name : String) : Failure :=
  match v.attributeNamed name with
  | .absent => .missingAttribute
  | _ => .mismatch

end Value

end Clearance
