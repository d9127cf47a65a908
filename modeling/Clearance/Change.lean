import Clearance.Run

/-! Operations that change a table.

An operation reads and writes a table in steps, and may fail between them. What it has
written by then stays written. -/
namespace Clearance

/-- An operation on a table: the table that it leaves behind, also when it fails, and its run. -/
def Change (σ α : Type) :=
  σ → σ × Run α

namespace Change

variable {σ α β : Type}

/-- A run that leaves the table alone. -/
def ofRun (x : Run α) : Change σ α := fun s =>
  (s, x)

/-- The table as it stands. -/
def current : Change σ σ := fun s =>
  (s, Run.answer s)

/-- Writes to the table. -/
def modify (f : σ → σ) : Change σ Unit := fun s =>
  (f s, Run.answer ())

/-- One operation after another on the table that the first one leaves. -/
def andThen (first : Change σ α) (next : α → Change σ β) : Change σ β := fun s =>
  let step := first s
  match step.2.outcome with
  | .ok a =>
    let last := next a step.1
    (last.1, ⟨step.2.events ++ last.2.events, last.2.outcome⟩)
  | .error f => (step.1, ⟨step.2.events, .error f⟩)

instance : Monad (Change σ) where
  pure a := ofRun (Run.answer a)
  bind := andThen

instance : MonadLift Run (Change σ) where
  monadLift := ofRun

@[simp] theorem pure_eq (a : α) : (pure a : Change σ α) = ofRun (Run.answer a) := rfl

@[simp] theorem bind_eq (x : Change σ α) (f : α → Change σ β) : x >>= f = x.andThen f := rfl

@[simp] theorem ofRun_apply (x : Run α) (s : σ) : ofRun x s = (s, x) := rfl

@[simp] theorem current_andThen (f : σ → Change σ β) (s : σ) :
    (current.andThen f) s = f s s := rfl

end Change

end Clearance
