import Clearance.Log.Level

/-! Settings shared by everything that builds policies or checks access. -/
namespace Clearance

/-- How to log and how to resolve access kinds by default. -/
structure Settings where
  logLevel : LogLevel := .info
  logJson : Bool := false
  serviceName : Option String := none
  /-- Whether a policy refuses access kinds that nobody knows. -/
  strictResolution : Bool := false
  /-- The record attribute that holds the deletion marker. -/
  softDeleteField : String := "deleted_at"
deriving DecidableEq

end Clearance
