import Clearance.Checked
import Clearance.Settings
import Clearance.Text.Identifier

/-! Reading settings, from named values or from the environment. -/
namespace Clearance

/-- The capital of a letter that can stand in the name of a level. The dotless
i shares its capital with the dotted one. -/
def capital (c : Char) : Char :=
  if c = 'ı' then 'I' else c.toUpper

/-- A log level, by its name in any case. -/
def readLevel (v : Value) : Checked LogLevel :=
  match v, v.text? with
  | .level l, _ => .fits l
  | _, some s =>
    match LogLevel.named? (String.ofList (s.toList.map capital)) with
    | some l => .fits l
    | none =>
      .fault (.rule ("Invalid log level: " ++ s ++ ". Must be one of " ++
        Value.quotedNames (LogLevel.all.map LogLevel.name)))
  | v, none =>
    .fault (.rule ("Log level must be string or LogLevel enum, got " ++ v.typeText))

/-- The name of an attribute. -/
def readAttributeName (v : Value) : Checked String :=
  match readText v with
  | .fits s =>
    if Text.isIdentifier s then .fits s
    else .fault (.rule ("soft_delete_field must be an identifier, got " ++ Text.quoted s))
  | .faulty issues => .faulty issues

namespace Settings

/-- Settings by name. -/
def read (body : Section) : Checked Settings :=
  body.only ["log_level", "log_json", "service_name", "strict_resolution", "soft_delete_field"]
    (Settings.mk <$> body.optional "log_level" .info readLevel <*>
      body.optional "log_json" false readFlag <*>
      body.optional "service_name" none (readOptional readText) <*>
      body.optional "strict_resolution" false readFlag <*>
      body.optional "soft_delete_field" "deleted_at" readAttributeName)

/-- Settings by name, or the failure that lists what is wrong with them. -/
def ofSection (body : Section) : Except Failure Settings :=
  (read body).orInvalid .settings

/-- Whether a variable of the environment is switched on. -/
def isOn (s : String) : Bool :=
  ["true", "1", "yes", "on"].contains (String.ofList (s.toList.map Char.toLower))

/-- Settings from the variables of an environment. -/
def ofEnvironment (environment : List (String × String)) : Except Failure Settings :=
  let text (key fallback : String) : String := (environment.lookup key).getD fallback
  ofSection
    [(.text "log_level", .text (text "LOG_LEVEL" "INFO")),
      (.text "log_json", .bool (isOn (text "LOG_JSON" "false"))),
      (.text "service_name", Value.orNull ((environment.lookup "SERVICE_NAME").map Value.text)),
      (.text "strict_resolution", .bool (isOn (text "ACCESS_STRICT_RESOLUTION" "false"))),
      (.text "soft_delete_field", .text (text "ACCESS_SOFT_DELETE_FIELD" "deleted_at"))]

end Settings

end Clearance
