import Clearance.Proofs.Run

/-! Which failures something can end in.

`Fails` bounds the failures of an outcome. `Preserves` does so for a step that works on a
state, given an invariant of the state that the step preserves. Both are shown for a program by
following its text, one lemma for each way of putting steps together. -/
namespace Clearance

variable {α β σ : Type} {faults : Failure → Prop}

/-! ## Outcomes -/

/-- An outcome fails, if it does, with one of some failures. -/
def Fails (faults : Failure → Prop) (x : Except Failure α) : Prop :=
  ∀ f, x = .error f → faults f

theorem fails_ok {a : α} : Fails faults (.ok a : Except Failure α) := by
  intro f hf
  cases hf

theorem fails_error {e : Failure} (h : faults e) : Fails faults (.error e : Except Failure α) := by
  intro f hf
  cases hf
  exact h

namespace Fails

variable {x : Except Failure α}

theorem mono {faults' : Failure → Prop} (h : Fails faults x) (himp : ∀ f, faults f → faults' f) :
    Fails faults' x :=
  fun f hf => himp f (h f hf)

theorem bind {f : α → Except Failure β} (h : Fails faults x) (hf : ∀ a, Fails faults (f a)) :
    Fails faults (x >>= f) := by
  intro e he
  rcases bind_eq_error_iff.mp he with hx | ⟨a, -, ha⟩
  · exact h e hx
  · exact hf a e ha

theorem ite {c : Prop} [Decidable c] {y : Except Failure α} (h : Fails faults x)
    (hy : Fails faults y) : Fails faults (if c then x else y) := by
  split
  · exact h
  · exact hy

theorem map {f : α → β} (h : Fails faults x) : Fails faults (f <$> x) := by
  cases x with
  | ok a => exact fails_ok
  | error e => exact fails_error (h e rfl)

end Fails

/-! ## Steps on a state -/

/-- A step preserves an invariant of the state, and fails, if it does, with one of some
failures. -/
def Preserves (inv : σ → Prop) (faults : Failure → Prop) (m : StateT σ (Except Failure) α) : Prop :=
  ∀ s, inv s → Fails faults (m.run s) ∧ ∀ a s', m.run s = .ok (a, s') → inv s'

section Preserves

variable {inv : σ → Prop}

theorem preserves_pure {a : α} : Preserves inv faults (pure a) := by
  intro s hs
  refine ⟨fails_ok, ?_⟩
  rintro _ _ ⟨⟩
  exact hs

theorem preserves_throw {e : Failure} (h : faults e) :
    Preserves inv faults (throw e : StateT σ (Except Failure) α) := by
  intro s _
  refine ⟨fails_error h, ?_⟩
  rintro _ _ ⟨⟩

/-- An outcome as a step that leaves the state as it is. -/
theorem preserves_lift {x : Except Failure α} (h : Fails faults x) :
    Preserves inv faults (liftM x : StateT σ (Except Failure) α) := by
  intro s hs
  cases x with
  | ok a =>
    refine ⟨fails_ok, ?_⟩
    rintro _ _ ⟨⟩
    exact hs
  | error e =>
    refine ⟨fails_error (h e rfl), ?_⟩
    rintro _ _ ⟨⟩

theorem preserves_modify {f : σ → σ} (h : ∀ s, inv s → inv (f s)) :
    Preserves inv faults (modify f : StateT σ (Except Failure) PUnit) := by
  intro s hs
  refine ⟨fails_ok, ?_⟩
  rintro _ _ ⟨⟩
  exact h s hs

namespace Preserves

variable {m : StateT σ (Except Failure) α}

theorem ite {c : Prop} [Decidable c] {m' : StateT σ (Except Failure) α} (h : Preserves inv faults m)
    (h' : Preserves inv faults m') : Preserves inv faults (if c then m else m') := by
  split
  · exact h
  · exact h'

theorem bind {f : α → StateT σ (Except Failure) β} (h : Preserves inv faults m)
    (hf : ∀ a, Preserves inv faults (f a)) : Preserves inv faults (m >>= f) := by
  intro s hs
  obtain ⟨hfails, hinv⟩ := h s hs
  rw [StateT.run_bind]
  cases hm : m.run s with
  | error e =>
    refine ⟨fails_error (hfails e hm), ?_⟩
    rintro _ _ ⟨⟩
  | ok step =>
    obtain ⟨a, s'⟩ := step
    exact hf a s' (hinv a s' hm)

/-- What follows upon reading the state may rely on the invariant. -/
theorem get_bind {f : σ → StateT σ (Except Failure) β}
    (hf : ∀ s, inv s → Preserves inv faults (f s)) : Preserves inv faults (get >>= f) :=
  fun s hs => hf s hs s hs

theorem set_bind {s : σ} {f : PUnit → StateT σ (Except Failure) β} (hs : inv s)
    (hf : Preserves inv faults (f ⟨⟩)) : Preserves inv faults (set s >>= f) :=
  fun _ _ => hf s hs

theorem map {f : α → β} (h : Preserves inv faults m) : Preserves inv faults (f <$> m) := by
  rw [map_eq_pure_bind]
  exact h.bind fun _ => preserves_pure

theorem mapM {f : α → StateT σ (Except Failure) β} (h : ∀ a, Preserves inv faults (f a))
    (xs : List α) : Preserves inv faults (xs.mapM f) := by
  induction xs with
  | nil => exact preserves_pure
  | cons x rest ih =>
    rw [List.mapM_cons]
    exact (h x).bind fun _ => ih.bind fun _ => preserves_pure

theorem forM {f : α → StateT σ (Except Failure) PUnit} (h : ∀ a, Preserves inv faults (f a))
    (xs : List α) : Preserves inv faults (xs.forM f) := by
  induction xs with
  | nil => exact preserves_pure
  | cons x rest ih =>
    rw [List.forM_eq_forM, List.forM_cons]
    exact (h x).bind fun _ => ih

end Preserves

end Preserves

end Clearance
