import Clearance.Change
import Clearance.Proofs.Run

/-! How changes end, and what they leave behind.

A change whose first step reads and whose last step writes leaves the table alone when it
fails (`Atomic`). This is not so of every change: what stands before the step that fails
stays written. -/
namespace Clearance.Change

variable {σ α β : Type} {s : σ}

theorem andThen_of_ok {x : Change σ α} {a : α} (h : (x s).2.outcome = .ok a)
    (f : α → Change σ β) :
    (x.andThen f) s = ((f a (x s).1).1,
      ⟨(x s).2.events ++ (f a (x s).1).2.events, (f a (x s).1).2.outcome⟩) := by
  simp [andThen, h]

theorem andThen_of_error {x : Change σ α} {e : Failure} (h : (x s).2.outcome = .error e)
    (f : α → Change σ β) : (x.andThen f) s = ((x s).1, ⟨(x s).2.events, .error e⟩) := by
  simp [andThen, h]

/-- What a change after another ends in. -/
theorem outcome_andThen (x : Change σ α) (f : α → Change σ β) :
    ((x.andThen f) s).2.outcome = (x s).2.outcome >>= fun a => (f a (x s).1).2.outcome := by
  cases h : (x s).2.outcome with
  | ok a => rw [andThen_of_ok h]; rfl
  | error e => rw [andThen_of_error h]; rfl

/-- A change after a run goes on with the table as it was. -/
theorem outcome_ofRun_andThen (x : Run α) (f : α → Change σ β) :
    (((ofRun x).andThen f) s).2.outcome = x.outcome >>= fun a => (f a s).2.outcome :=
  outcome_andThen (ofRun x) f

@[simp] theorem modify_andThen (g : σ → σ) (f : Unit → Change σ β) :
    ((modify g).andThen f) s = f () (g s) := by
  rw [andThen_of_ok (a := ()) rfl]
  rfl

@[simp] theorem answer_andThen (a : α) (f : α → Change σ β) :
    (ofRun (Run.answer a)).andThen f = f a := by
  funext s
  rw [andThen_of_ok (a := a) rfl]
  rfl

@[simp] theorem fail_andThen (e : Failure) (f : α → Change σ β) :
    (ofRun (Run.fail e)).andThen f = ofRun (Run.fail e) := by
  funext s
  rw [andThen_of_error (e := e) rfl]
  rfl

/-! ## Changes that answer -/

/-- A change answers on a table, and leaves a table behind. -/
def Answers (x : Change σ α) (s : σ) (a : α) (s' : σ) : Prop :=
  (x s).2.outcome = .ok a ∧ (x s).1 = s'

theorem answers_ofRun_iff {x : Run α} {a : α} {s' : σ} :
    (ofRun x).Answers s a s' ↔ x.outcome = .ok a ∧ s = s' :=
  Iff.rfl

theorem answers_modify_iff {g : σ → σ} {u : Unit} {s' : σ} :
    (modify g).Answers s u s' ↔ g s = s' :=
  and_iff_right rfl

/-- One change after another answers exactly when both do, the second one on the table that
the first one leaves. -/
theorem answers_andThen_iff {x : Change σ α} {f : α → Change σ β} {b : β} {s'' : σ} :
    (x.andThen f).Answers s b s'' ↔ ∃ a s', x.Answers s a s' ∧ (f a).Answers s' b s'' := by
  constructor
  · rintro ⟨hok, hstate⟩
    cases hx : (x s).2.outcome with
    | ok a =>
      rw [andThen_of_ok hx] at hok hstate
      exact ⟨a, _, ⟨hx, rfl⟩, hok, hstate⟩
    | error e =>
      rw [andThen_of_error hx] at hok
      cases hok
  · rintro ⟨a, _, ⟨hx, rfl⟩, hok, hstate⟩
    rw [Answers, andThen_of_ok hx]
    exact ⟨hok, hstate⟩

/-! ## Changes that fail without a trace -/

/-- A change that leaves the table as it was when it fails. -/
def Atomic (x : Change σ α) : Prop :=
  ∀ s e, (x s).2.outcome = .error e → (x s).1 = s

/-- Reading first does no harm. -/
theorem atomic_current {f : σ → Change σ β} (h : ∀ s, Atomic (f s)) :
    Atomic (current.andThen f) :=
  fun s => h s s

/-- A run in front of a change does no harm. -/
theorem Atomic.after {f : α → Change σ β} (h : ∀ a, Atomic (f a)) (x : Run α) :
    Atomic ((ofRun x).andThen f) := by
  intro s e he
  cases hx : x.outcome with
  | ok a =>
    rw [andThen_of_ok (x := ofRun x) hx] at he ⊢
    exact h a s e he
  | error e' => rw [andThen_of_error (x := ofRun x) hx]; rfl

/-- Behind a change nothing may fail any more. -/
theorem Atomic.before {x : Change σ α} (h : Atomic x) {f : α → Change σ β}
    (hf : ∀ a s, ∃ b, (f a s).2.outcome = .ok b) : Atomic (x.andThen f) := by
  intro s e he
  cases hx : (x s).2.outcome with
  | ok a =>
    obtain ⟨b, hb⟩ := hf a (x s).1
    rw [andThen_of_ok hx] at he
    cases hb.symm.trans he
  | error e' =>
    rw [andThen_of_error hx]
    exact h s e' hx

end Clearance.Change
