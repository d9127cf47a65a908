import Clearance.Value

/-! What is wrong with a piece of structured input, and where. -/
namespace Clearance

/-- A step on the way to a rejected value: a key or a place in a list. -/
inductive Step where
  | key (s : String)
  | place (n : Int)
deriving DecidableEq

/-- A fault of one value. -/
inductive Fault where
  | missing
  | unexpected
  | notText
  | emptyText
  | undecodableText
  | notList
  | notMapping
  | notSection
  | notBoolean
  | unreadableBoolean
  | notKey
  /-- A rule of the field itself is broken. -/
  | rule (text : String)
deriving DecidableEq

/-- The code of a fault. -/
def Fault.code : Fault → String
  | missing => "missing"
  | unexpected => "extra_forbidden"
  | notText => "string_type"
  | emptyText => "string_too_short"
  | undecodableText => "string_unicode"
  | notList => "list_type"
  | notMapping => "dict_type"
  | notSection => "model_type"
  | notBoolean => "bool_type"
  | unreadableBoolean => "bool_parsing"
  | notKey => "invalid_key"
  | rule _ => "value_error"

/-- A fault with the way to the value that has it. -/
structure Issue where
  path : List Step
  fault : Fault
deriving DecidableEq

/-- The same fault, seen from one step further out. -/
def Issue.under (step : Step) (issue : Issue) : Issue :=
  { issue with path := step :: issue.path }

/-- A step as a value. -/
def Step.toValue : Step → Value
  | key s => .text s
  | place n => .int n

/-- An issue as a mapping of its path and code, and of its text when a rule is broken. -/
def Issue.toValue (issue : Issue) : Value :=
  let basic : List (Value × Value) :=
    [(.text "loc", .list (issue.path.map Step.toValue)), (.text "type", .text issue.fault.code)]
  match issue.fault with
  | .rule text => .dict (basic ++ [(.text "msg", .text ("Value error, " ++ text))])
  | _ => .dict basic

end Clearance
