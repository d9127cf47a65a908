import Clearance.Failure
import Clearance.Value.Equality

/-! Runs: what an operation does to the outside, in order, and how it ends.

An operation of this library may write log records and call hooks and
principals before it answers or fails. A run lists these events and holds the
outcome; events that precede a failure are kept. -/
namespace Clearance

/-- The parts of the library that write log records. -/
inductive Channel where
  | registry
  | closure
  | policy
  | resolver
  | access
  | cache
  | declarations
deriving DecidableEq

/-- The name of the logger that a part writes to. -/
def Channel.name : Channel → String
  | registry => "credentialcore.credentials.registry"
  | closure => "credentialcore.credentials.closure"
  | policy => "credentialcore.credentials.policy"
  | resolver => "credentialcore.credentials.resolver"
  | access => "credentialcore.credentials.access"
  | cache => "credentialcore.credentials.cache"
  | declarations => "credentialcore.declarations"

/-- A log record: who writes it, how severe it is and what it says. Decisions
also carry the entity type. -/
structure Notice where
  channel : Channel
  level : LogLevel
  message : String
  entityType : Option Value

/-- Something that can be seen from outside while an operation runs. -/
inductive Event where
  | logged (notice : Notice)
  | hookCalled (name : String) (arguments : List Value)
  | principalCalled (credentials : Value) (useAnd : Bool) (record : Value)

/-- The events of an operation in order, and its answer or failure. -/
structure Run (α : Type) where
  events : List Event
  outcome : Except Failure α

namespace Run

/-- A run without events that answers. -/
def answer {α : Type} (a : α) : Run α :=
  ⟨[], .ok a⟩

/-- A run without events that fails. -/
def fail {α : Type} (f : Failure) : Run α :=
  ⟨[], .error f⟩

/-- One run after another; the second starts only when the first answers. -/
def andThen {α β : Type} (first : Run α) (next : α → Run β) : Run β :=
  match first.outcome with
  | .ok a => ⟨first.events ++ (next a).events, (next a).outcome⟩
  | .error f => ⟨first.events, .error f⟩

instance : Monad Run where
  pure := answer
  bind := andThen

/-- A run that is nothing but one event. -/
def emit (e : Event) : Run Unit :=
  ⟨[e], .ok ()⟩

/-- A run that writes one log record. -/
def log (channel : Channel) (level : LogLevel) (message : String) : Run Unit :=
  emit (.logged ⟨channel, level, message, none⟩)

/-- An answer or failure without events. -/
def ofExcept {α : Type} (outcome : Except Failure α) : Run α :=
  ⟨[], outcome⟩

/-- A run without events that ends in a rejection. -/
def reject {α : Type} (r : Rejection) : Run α :=
  ofExcept (refuse r)

/-- An answer that may be absent because a value cannot be used. -/
def orMismatch {α : Type} : Option α → Run α
  | some a => answer a
  | none => fail .mismatch

@[simp] theorem pure_eq {α : Type} (a : α) : (pure a : Run α) = answer a := rfl

@[simp] theorem bind_eq {α β : Type} (x : Run α) (f : α → Run β) : x >>= f = x.andThen f := rfl

@[simp] theorem answer_andThen {α β : Type} (a : α) (f : α → Run β) :
    (answer a).andThen f = f a := by
  simp [andThen, answer]

@[simp] theorem fail_andThen {α β : Type} (e : Failure) (f : α → Run β) :
    (fail e : Run α).andThen f = fail e := by
  simp [andThen, fail]

/-- A run after another answers exactly when both do. -/
theorem andThen_outcome_ok {α β : Type} {x : Run α} {f : α → Run β} {b : β} :
    (x.andThen f).outcome = .ok b ↔ ∃ a, x.outcome = .ok a ∧ (f a).outcome = .ok b := by
  cases h : x.outcome <;> simp [andThen, h]

end Run

/-- The answer of an optional value, or a failure because a value cannot be used. -/
def orMismatch {α : Type} : Option α → Except Failure α
  | some a => .ok a
  | none => .error .mismatch

/-- Whether two values are equal, if that can be told. -/
def Value.equals (a b : Value) : Except Failure Bool :=
  match a.equal? b with
  | some answer => .ok answer
  | none => .error .endless

/-- A key, if the value can be one. -/
def asKey (v : Value) : Except Failure Unit :=
  if v.hashable then .ok () else .error .mismatch

end Clearance
