import Clearance.Run

/-! Principals: whoever is asked whether they hold credentials.

A request is a name or a group. A group is a conjunction or a disjunction of
its members, and each nested group uses the opposite combinator of the group
around it. -/
namespace Clearance

/-- A request for credentials. Members that are neither names nor groups can
be listed, but not decided, and a group that holds itself has no end. -/
inductive Request where
  | name (s : String)
  | group (members : List Request)
  | unreadable
  | endless

namespace Request

mutual

/-- The request that a value makes: a text is a name, and everything that can
be walked through is a group. -/
def ofValue : Value → Request
  | .text s => name s
  | .level l => name l.name
  | .list items => group (ofValues items)
  | .tuple items => group (ofValues items)
  | .set items => group (ofValues items)
  | .dict entries => group (ofKeys entries)
  | .bytes octets => group (octets.map fun _ => unreadable)
  | .knot _ members number => (ofValues members).getD number unreadable
  | .back _ => endless
  | _ => unreadable

/-- The requests that a list of values makes. -/
def ofValues : List Value → List Request
  | [] => []
  | v :: rest => ofValue v :: ofValues rest

/-- The requests that the keys of a mapping make. -/
def ofKeys : List (Value × Value) → List Request
  | [] => []
  | (k, _) :: rest => ofValue k :: ofKeys rest

end

mutual

/-- Whether a holder of some names satisfies a request. Members are looked at
in order, and only until one decides the group. -/
def satisfiedBy (held : String → Bool) (useAnd : Bool) : Request → Except Failure Bool
  | name s => .ok (held s)
  | group members => allSatisfied held useAnd members
  | unreadable => .error .mismatch
  | endless => .error .endless

/-- Whether a holder satisfies the members of a group. -/
def allSatisfied (held : String → Bool) (useAnd : Bool) : List Request → Except Failure Bool
  | [] => .ok useAnd
  | r :: rest => do
    let matched ← satisfiedBy held (!useAnd) r
    if matched = useAnd then allSatisfied held useAnd rest else pure matched

end

end Request

/-- What a holder says: an answer, or one that has to be awaited. -/
inductive Answer where
  | now (v : Value)
  | later (run : Run Value)

/-- Anything that can be asked whether it holds credentials: for a request, with
a conjunction or disjunction at its top, and for a record. -/
structure Holder where
  ask : Value → Bool → Value → Run Answer

/-- Who an access check is about. -/
inductive Principal where
  | nobody
  | holder (h : Holder)
  /-- An object that cannot be asked. -/
  | stranger (typeName : String)

/-- A principal with a fixed set of formatted credentials. -/
structure StaticPrincipal where
  credentials : Value
  principalId : Value
  held : List Value

namespace StaticPrincipal

/-- The principal that holds the members of a value, if they can be members of a set. -/
def ofValue? (credentials principalId : Value) : Option StaticPrincipal :=
  credentials.distinctMembers?.map fun held => ⟨credentials, principalId, held⟩

/-- Whether a name is held. -/
def holds (p : StaticPrincipal) (name : String) : Bool :=
  Value.memberOf (.text name) p.held

/-- Whether a request is satisfied. -/
def hasCredential (p : StaticPrincipal) (credentials : Value) (useAnd : Bool) :
    Except Failure Bool :=
  (Request.ofValue credentials).satisfiedBy p.holds useAnd

/-- The answer to a request when the combinator is a value of any kind, of which
only the truth matters. A group that no member decides answers that value. -/
def answerTo (p : StaticPrincipal) (credentials useAnd : Value) : Except Failure Value := do
  let granted ← p.hasCredential credentials useAnd.isTrue
  if credentials.text?.isNone && granted = useAnd.isTrue then pure useAnd else pure (.bool granted)

/-- The principal as a holder; it answers at once and the same for every record. -/
def toHolder (p : StaticPrincipal) : Holder where
  ask credentials useAnd _ := do
    let granted ← Run.ofExcept (p.hasCredential credentials useAnd)
    pure (.now (.bool granted))

/-- Equality of what the principals were made from. -/
def equals (p q : StaticPrincipal) : Except Failure Bool :=
  (Value.tuple [p.credentials, p.principalId]).equals (.tuple [q.credentials, q.principalId])

/-- A principal as messages show it. -/
def quoted (p : StaticPrincipal) : String :=
  "StaticPrincipal(credentials=" ++ p.credentials.quoted ++ ", principal_id=" ++
    p.principalId.quoted ++ ")"

end StaticPrincipal

end Clearance
