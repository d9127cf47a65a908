/-! Levels of log records, from the least to the most severe. -/
namespace Clearance

inductive LogLevel where
  | debug
  | info
  | warning
  | error
  | critical
deriving DecidableEq

namespace LogLevel

/-- All levels, the least severe first. -/
def all : List LogLevel :=
  [debug, info, warning, error, critical]

/-- The name that a record shows. -/
def name : LogLevel → String
  | debug => "DEBUG"
  | info => "INFO"
  | warning => "WARNING"
  | error => "ERROR"
  | critical => "CRITICAL"

/-- The number that thresholds are compared by. -/
def severity : LogLevel → Nat
  | debug => 10
  | info => 20
  | warning => 30
  | error => 40
  | critical => 50

/-- The level with a name. -/
def named? (s : String) : Option LogLevel :=
  all.find? (·.name == s)

theorem named?_name (l : LogLevel) : named? l.name = some l := by
  cases l <;> rfl

end LogLevel

end Clearance
