import Clearance.Value.Equality
import Clearance.Value.Text

/-! Ordered sets of credential names, any member of which satisfies a request.

The order is that of first occurrence; it shows when the set is listed and does
not matter for equality. -/
namespace Clearance

/-- Distinct names in order of first occurrence. -/
structure CredentialSet where
  names : List Value

namespace CredentialSet

/-- The set of the members of a value, if they can be members of a set. -/
def ofValue? (v : Value) : Option CredentialSet :=
  v.distinctMembers?.map CredentialSet.mk

/-- Whether a value is a member. -/
def holds (s : CredentialSet) (v : Value) : Bool :=
  Value.memberOf v s.names

/-- Whether two sets have the same members. -/
def sameMembers (s t : CredentialSet) : Bool :=
  s.names.length == t.names.length && Value.sameMembers s.names t.names

/-- A set as messages show it. -/
def quoted (s : CredentialSet) : String :=
  "ResolvedCredentialSet(" ++ (Value.list s.names).quoted ++ ")"

end CredentialSet

end Clearance
