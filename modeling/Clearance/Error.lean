import Clearance.Failure
import Clearance.Value.Equality

/-! Errors that callers raise themselves, and the table that leads from a
stable code back to the class of an error. -/
namespace Clearance

/-- An error with its code, its message and further details. -/
structure ErrorReport where
  kind : ErrorKind
  code : Value
  message : Value
  details : List (String × Value)

namespace ErrorReport

/-- What is said when nothing else is. -/
def defaultMessage : String :=
  "An internal error occurred"

/-- An error of a kind. A message or code that counts as false gives way to the usual one. -/
def make (kind : ErrorKind) (message code : Value) (details : List (String × Value)) :
    ErrorReport where
  kind := kind
  code := code.orText kind.code
  message := message.orText defaultMessage
  details := details

/-- The error that a rejection is raised as. -/
def ofRejection (r : Rejection) : ErrorReport :=
  make r.kind (.text r.message) .null r.details

end ErrorReport

/-- A class of errors: one of the kinds, or a class derived from one with a code of its own. -/
structure ErrorClass where
  name : String
  kind : ErrorKind
  /-- The code of its errors, if it differs from that of the kind. -/
  code : Option Value

/-- The code of an error of a class. -/
def ErrorClass.errorCode (c : ErrorClass) : Value :=
  c.code.getD (.text c.kind.code)

/-- Error classes by code, in order of first registration. -/
abbrev ErrorTable :=
  List (Value × ErrorClass)

namespace ErrorTable

/-- The table after a class is registered for a code. A later class replaces an earlier one. -/
def register (t : ErrorTable) (code : Value) (c : ErrorClass) : Except Failure ErrorTable :=
  if !code.hashable then .error .mismatch
  else if t.any fun e => e.1.same code then
    .ok (t.map fun e => if e.1.same code then (e.1, c) else e)
  else .ok (t ++ [(code, c)])

/-- The class that is registered for a code. -/
def find (t : ErrorTable) (code : Value) : Except Failure (Option ErrorClass) :=
  if code.hashable then .ok ((t.find? fun e => e.1.same code).map Prod.snd) else .error .mismatch

/-- The table of all kinds. -/
def standard : ErrorTable :=
  ErrorKind.all.map fun k => (.text k.code, ⟨k.name, k, none⟩)

end ErrorTable

end Clearance
