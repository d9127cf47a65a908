import Clearance.Error
import Clearance.Log.Preview
import Clearance.Log.Template
import Clearance.Value.Item

/-! Log records and the lines that they are written as.

A line is a JSON object or plain text. Besides time, level, logger and message
it shows the entity type and the trace in whose context the record was written;
every further attribute of a record stands in the JSON object as a preview. -/
namespace Clearance.Log

/-- What a record says about a failure: its text, or its description as a triple
of kind, failure and trace, of which null stands for none. -/
inductive Reported where
  | failure (text : String)
  | described (triple : Value)

/-- A log record. -/
structure Record where
  logger : Value
  level : Value
  message : Value
  /-- What the message is filled in with. -/
  arguments : Value
  reported : Reported := .described .null
  /-- The further attributes in order, most often by a text. -/
  attributes : List (Value × Value) := []

/-- The attributes that every record has. -/
def ownAttributes : List String :=
  ["name", "msg", "args", "levelname", "levelno", "pathname", "filename", "module", "exc_info",
    "exc_text", "stack_info", "lineno", "funcName", "created", "msecs", "relativeCreated",
    "thread", "threadName", "processName", "process"]

/-- The attributes that are not shown as previews. -/
def reserved : List String :=
  ownAttributes ++ ["message", "taskName", "entity_type", "trace_id"]

/-- The text of a failure by its class and what it says, without a trace of where
it happened. -/
def failureText (kind said : String) : String :=
  match kind with
  | "KeyError" => "KeyError: " ++ Text.quoted said
  | "ConfigurationError" =>
    "credentialcore.exceptions.ConfigurationError: " ++
      if said.isEmpty then ErrorReport.defaultMessage else said
  | kind => if said.isEmpty then kind else kind ++ ": " ++ said

/-- The fields with a preview put in for each of some attributes. -/
def withPreviews (attributes fields : List (Value × Value)) :
    Except Failure (List (Value × Value)) :=
  attributes.foldlM (fun fs e => do return Value.put e.1 (.text (← preview defaultLimit e.2)) fs)
    fields

namespace Record

/-- A record. A single mapping that is not empty is looked up by key. -/
def make (logger : Value) (level : LogLevel) (message : Value) (arguments : List Value) :
    Record where
  logger := logger
  level := .text level.name
  message := message
  arguments :=
    match arguments, arguments.map Value.entries? with
    | [v], [some (_ :: _)] => v
    | arguments, _ => .tuple arguments

/-- The record with an attribute set, which has to be named by a text. The type of
a record stays as it is, and a record without its own attributes cannot be used. -/
def set (r : Record) (key v : Value) : Except Failure Record :=
  match key.text? with
  | none => .error .mismatch
  | some "__class__" => .error .mismatch
  | some "__dict__" => .error (if v.entries?.isSome then .missingAttribute else .mismatch)
  | some "__weakref__" => .error .missingAttribute
  | some "name" => .ok { r with logger := v }
  | some "levelname" => .ok { r with level := v }
  | some "msg" => .ok { r with message := v }
  | some "args" => .ok { r with arguments := v }
  | some "exc_info" => .ok { r with reported := .described v }
  | some _ => .ok { r with attributes := Value.put key v r.attributes }

/-- The value of an attribute, if it has been set. -/
def attribute? (r : Record) (key : String) : Option Value :=
  Value.at? (.text key) r.attributes

/-- The value of an attribute, or null. -/
def attributeAt (r : Record) (key : String) : Value :=
  Value.orNull (r.attribute? key)

/-- The message with its arguments filled in. An attribute that takes the place of
this operation cannot be used as one. -/
def text (r : Record) : Except Failure String :=
  if (r.attribute? "getMessage").isSome then .error .mismatch
  else do
    asWritten [r.message]
    if r.arguments.isTrue then fill r.message.plain r.arguments else pure r.message.plain

/-- A trace as it is shown: the text of a unique identifier, all else as it is. -/
def traceShown : Value → Value
  | .uuid s => .text s
  | v => v

/-- What a description says when there is no failure. -/
def noFailure : String :=
  "NoneType: None"

/-- The text of a description. Only one without a failure and a trace has one. -/
def describedText (triple : Value) : Except Failure String := do
  let trace ← triple.item (.int 2)
  let _ ← triple.item (.int 0)
  let failure ← triple.item (.int 1)
  match trace, failure with
  | .null, .null => pure noFailure
  | _, _ => .error .missingAttribute

/-- What a record shows of a failure. -/
def reportedText : Reported → Except Failure (List (String × Value))
  | .failure text => .ok [("exception", .text text)]
  | .described triple =>
    if triple.isTrue then do return [("exception", .text (← describedText triple))] else .ok []

/-- The context that a record shows: what counts as false is left out. -/
def context (r : Record) : List (String × Value) :=
  let entityType := r.attributeAt "entity_type"
  let trace := r.attributeAt "trace_id"
  (if entityType.isTrue then [("entity_type", entityType)] else []) ++
    (if trace.isTrue then [("trace_id", traceShown trace)] else [])

/-- The fields of a line. A further attribute replaces a field of its name. -/
def fields (r : Record) (includeContext : Bool) (time : String) :
    Except Failure (List (Value × Value)) := do
  let message ← r.text
  let reported ← reportedText r.reported
  let own : List (String × Value) :=
    [("timestamp", .text time), ("level", r.level), ("logger", r.logger),
      ("message", .text message)] ++ (if includeContext then r.context else []) ++ reported
  let further := r.attributes.filter fun e => !e.1.text?.any reserved.contains
  withPreviews further (own.map fun e => (.text e.1, e.2))

/-- The field of a name as it reads in plain text. -/
def shown (fields : List (Value × Value)) (key : String) : Except Failure String := do
  let v := Value.orNull (Value.at? (.text key) fields)
  asWritten [v]
  pure v.plain

/-- A part of the context as it reads in plain text. -/
def shownPart (e : String × Value) : Except Failure String := do
  asWritten [e.2]
  pure (e.1 ++ "=" ++ e.2.plain)

/-- The line of a record. -/
def line (r : Record) (includeContext json : Bool) (time : String) : Except Failure String := do
  let fields ← r.fields includeContext time
  if json then
    let j ← Json.ofValue (.dict fields)
    pure (String.ofList (j.render Json.readable))
  else
    let timestamp ← shown fields "timestamp"
    let level ← shown fields "level"
    let logger ← shown fields "logger"
    let context ← (if includeContext then r.context else []).mapM shownPart
    let message ← shown fields "message"
    pure (" ".intercalate (["[" ++ timestamp ++ "]", level, logger] ++ context ++
      [": " ++ message]))

end Record

end Clearance.Log
