import Clearance.Log.Record
import Clearance.Run
import Clearance.Settings

/-! Writing log records: what a caller binds to a logger and passes with a
record, and which records reach the output. -/
namespace Clearance.Log

/-- Named options of a call. -/
abbrev Options :=
  List (Value × Value)

/-- The value of an option. -/
def Options.get? (options : Options) (key : String) : Option Value :=
  Value.at? (.text key) options

/-- The context that is bound to a logger. -/
structure Binding where
  entityType : Value := .null
  trace : Value := .null

namespace Binding

/-- The extra attributes with one more, unless its value counts as false. Only
a mapping can take one. -/
def addExtra (key : String) (v extra : Value) : Except Failure Value :=
  if v.isTrue then
    match extra.entries? with
    | some entries => .ok (.dict (Value.put (.text key) v entries))
    | none => .error .mismatch
  else .ok extra

/-- The options of a call with the context moved into the extra attributes. A
call can replace the bound context. -/
def process (b : Binding) (options : Options) : Except Failure Options := do
  let entityType := (options.get? "entity_type").getD b.entityType
  let trace := (options.get? "trace_id").getD b.trace
  let others := options.filter fun e => e.1 != .text "entity_type" && e.1 != .text "trace_id"
  let extra := (Options.get? others "extra").getD (.dict [])
  let extra ← addExtra "entity_type" entityType extra
  let extra ← addExtra "trace_id" trace extra
  pure (Value.put (.text "extra") extra others)

end Binding

/-- What is logged how. -/
structure Setup where
  /-- The least severe level that is written. -/
  threshold : LogLevel
  /-- Whether lines are JSON: a value of any kind, of which only the truth matters. -/
  json : Value
  /-- The service whose logger gets the threshold as well. -/
  service : Option String

/-- The setup that settings ask for; the layout can be chosen apart from them,
and null leaves it to them. -/
def Setup.ofSettings (s : Settings) (json : Value) : Setup where
  threshold := s.logLevel
  json :=
    match json with
    | .null => .bool s.logJson
    | json => json
  service := if s.serviceName = some "" then none else s.serviceName

/-- A call that logs a message. -/
structure Call where
  logger : Value
  level : LogLevel
  message : Value
  arguments : List Value := []
  binding : Binding := {}
  options : Options := []

namespace Call

/-- The names that a call has for its own arguments. -/
def taken : List String :=
  ["self", "level", "msg"]

/-- The options that a record can be made with. -/
def known : List String :=
  ["extra", "exc_info", "stack_info", "stacklevel"]

/-- What a record reports: the description that is given, or, when one is only
asked for, that there is no failure. -/
def reported (v : Value) : Reported :=
  match v with
  | .tuple items => .described (.tuple items)
  | v => if v.isTrue then .failure Record.noFailure else .described .null

/-- Whether a record has an attribute, or gets it while it is written. -/
def isTaken (r : Record) (key : Value) : Bool :=
  key.text?.any (("message" :: "asctime" :: ownAttributes).contains ·) ||
    (Value.at? key r.attributes).isSome

/-- The record with the items of an extra at some keys as attributes. None may
replace an attribute that is already there. -/
def addExtras (extra : Value) (r : Record) : List Value → Except Failure Record
  | [] => .ok r
  | key :: rest => do
    asKey key
    if isTaken r key then .error .missingKey
    else
      let v ← extra.item key
      addExtras extra { r with attributes := r.attributes ++ [(key, v)] } rest

/-- The record with extra attributes: for each key that the extra yields, the item there. -/
def withExtra (r : Record) (extra : Value) : Except Failure Record :=
  match extra with
  | .null => .ok r
  | extra => do addExtras extra r (← orMismatch extra.members?)

/-- Whether a value can be compared with a number of stack frames. -/
def isNumber (v : Value) : Bool :=
  v.number?.isSome

/-- The name of a logger, which has to be a text; one without a name is the root of
all loggers. -/
def loggerName (name : Value) : Except Failure Value :=
  if !name.isTrue then .ok (.text "root")
  else if name.text?.isSome then .ok name
  else .error .mismatch

/-- The record that a call makes from its processed options. -/
def record (c : Call) (logger : Value) (options : Options) : Except Failure Record :=
  let option (key : String) : Value := Value.orNull (options.get? key)
  if options.any fun e => !e.1.text?.any known.contains then .error .mismatch
  else if !((options.get? "stacklevel").all isNumber) then .error .mismatch
  else
    let r := Record.make logger c.level c.message c.arguments
    withExtra { r with reported := reported (option "exc_info") } (option "extra")

/-- What a call writes: a line, or nothing when its level is below the threshold. -/
def write (c : Call) (s : Setup) (time : String) : Except Failure String := do
  let logger ← loggerName c.logger
  if c.options.any fun e => e.1.text?.all taken.contains then .error .mismatch
  else if c.level.severity < s.threshold.severity then pure ""
  else do
    let r ← c.record logger (← c.binding.process c.options)
    let line ← r.line true s.json.isTrue time
    pure (line ++ "\n")

end Call

end Clearance.Log
