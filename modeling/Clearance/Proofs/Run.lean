import Clearance.Run
import Mathlib.Data.List.Forall2
import Mathlib.Data.List.Perm.Basic

/-! How runs end.

What a run answers or fails with does not depend on the log records that it
writes on the way. Reading all members of a list answers exactly when each member
can be read. -/
namespace Clearance

namespace Run

variable {α β : Type}

@[simp] theorem outcome_answer (a : α) : (answer a).outcome = .ok a := rfl

@[simp] theorem outcome_fail (f : Failure) : (fail f : Run α).outcome = .error f := rfl

@[simp] theorem outcome_reject (r : Rejection) : (reject r : Run α).outcome = refuse r := rfl

@[simp] theorem outcome_ofExcept (x : Except Failure α) : (ofExcept x).outcome = x := rfl

@[simp] theorem outcome_emit_andThen (e : Event) (f : Unit → Run β) :
    ((emit e).andThen f).outcome = (f ()).outcome := rfl

@[simp] theorem outcome_log_andThen (channel : Channel) (level : LogLevel) (message : String)
    (f : Unit → Run β) : ((log channel level message).andThen f).outcome = (f ()).outcome := rfl

@[simp] theorem ofExcept_ok (a : α) : (ofExcept (.ok a) : Run α) = answer a := rfl

@[simp] theorem ofExcept_error (f : Failure) : (ofExcept (.error f) : Run α) = fail f := rfl

theorem andThen_of_ok {x : Run α} {a : α} (h : x.outcome = .ok a) (f : α → Run β) :
    x.andThen f = ⟨x.events ++ (f a).events, (f a).outcome⟩ := by
  simp [andThen, h]

theorem andThen_of_error {x : Run α} {e : Failure} (h : x.outcome = .error e) (f : α → Run β) :
    x.andThen f = ⟨x.events, .error e⟩ := by
  simp [andThen, h]

theorem outcome_andThen_of_ok {x : Run α} {a : α} (h : x.outcome = .ok a) (f : α → Run β) :
    (x.andThen f).outcome = (f a).outcome := by
  simp [andThen, h]

theorem outcome_andThen_of_error {x : Run α} {e : Failure} (h : x.outcome = .error e)
    (f : α → Run β) : (x.andThen f).outcome = .error e := by
  simp [andThen, h]

theorem andThen_assoc {γ : Type} (x : Run α) (f : α → Run β) (g : β → Run γ) :
    (x.andThen f).andThen g = x.andThen fun a => (f a).andThen g := by
  cases hx : x.outcome with
  | error e => simp [andThen, hx]
  | ok a => cases hf : (f a).outcome <;> simp [andThen, hx, hf]

/-- A run whose answer is taken for something else. -/
theorem andThen_answer (x : Run α) (f : α → β) :
    (x.andThen fun a => answer (f a)) = ⟨x.events, x.outcome.map f⟩ := by
  cases h : x.outcome <;> simp [andThen, h, answer, Except.map]

/-- What a run after another ends in. -/
theorem outcome_andThen (x : Run α) (f : α → Run β) :
    (x.andThen f).outcome = x.outcome >>= fun a => (f a).outcome := by
  cases h : x.outcome <;> simp [andThen, h, Bind.bind, Except.bind]

end Run

theorem orMismatch_eq_ok_iff {α : Type} {x : Option α} {a : α} :
    orMismatch x = .ok a ↔ x = some a := by
  cases x <;> simp [orMismatch]

theorem toOption_eq_some_iff {α : Type} {x : Except Failure α} {a : α} :
    x.toOption = some a ↔ x = .ok a := by
  cases x <;> simp [Except.toOption]

/-- Something whose answer passes a test answers. -/
theorem exists_ok_of_any {α : Type} {x : Except Failure α} {test : α → Bool}
    (h : x.toOption.any test = true) : ∃ a, x = .ok a ∧ test a = true := by
  cases x with
  | error e => cases h
  | ok a => exact ⟨a, rfl, h⟩

/-- One thing after another answers exactly when both do. -/
theorem bind_eq_ok_iff {α β : Type} {x : Except Failure α} {f : α → Except Failure β} {b : β} :
    (x >>= f) = .ok b ↔ ∃ a, x = .ok a ∧ f a = .ok b := by
  cases x <;> simp [bind, Except.bind]

/-- Of one thing after another, the first one fails, or the second one after it. -/
theorem bind_eq_error_iff {α β : Type} {x : Except Failure α} {f : α → Except Failure β}
    {e : Failure} : (x >>= f) = .error e ↔ x = .error e ∨ ∃ a, x = .ok a ∧ f a = .error e := by
  cases x <;> simp [bind, Except.bind]

/-- Lists that are related place by place relate every member to one of the other list. -/
theorem exists_of_mem_forall₂ {α β : Type} {R : α → β → Prop} {xs : List α} {ys : List β}
    (h : List.Forall₂ R xs ys) {x : α} (hx : x ∈ xs) : ∃ y ∈ ys, R x y := by
  induction h with
  | nil => cases hx
  | cons hxy _ ih =>
    rcases List.mem_cons.mp hx with rfl | hrest
    · exact ⟨_, List.mem_cons_self, hxy⟩
    · obtain ⟨y, hy, hr⟩ := ih hrest
      exact ⟨y, List.mem_cons_of_mem _ hy, hr⟩

/-- Reading a list answers with what each member is read as. -/
theorem mapM_eq_ok_iff {α β : Type} {f : α → Except Failure β} {xs : List α} {ys : List β} :
    xs.mapM f = .ok ys ↔ List.Forall₂ (fun x y => f x = .ok y) xs ys := by
  induction xs generalizing ys with
  | nil =>
    rw [List.mapM_nil, List.forall₂_nil_left_iff]
    constructor
    · intro h
      cases h
      rfl
    · rintro rfl
      rfl
  | cons x rest ih =>
    rw [List.mapM_cons, bind_eq_ok_iff, List.forall₂_cons_left_iff]
    constructor
    · rintro ⟨y, hy, hrest⟩
      rw [bind_eq_ok_iff] at hrest
      obtain ⟨ys', hys', heq⟩ := hrest
      cases heq
      exact ⟨y, ys', hy, ih.mp hys', rfl⟩
    · rintro ⟨y, ys', hy, hys', rfl⟩
      refine ⟨y, hy, ?_⟩
      rw [bind_eq_ok_iff]
      exact ⟨ys', ih.mpr hys', rfl⟩

/-- Reading in another order answers with the same in another order. -/
theorem mapM_perm {α β : Type} {f : α → Except Failure β} {xs xs' : List α} {ys : List β}
    (h : xs.Perm xs') (hok : xs.mapM f = .ok ys) :
    ∃ ys', xs'.mapM f = .ok ys' ∧ ys.Perm ys' := by
  obtain ⟨ys', hys', hperm⟩ := List.perm_comp_forall₂ h.symm (mapM_eq_ok_iff.mp hok)
  exact ⟨ys', mapM_eq_ok_iff.mpr hys', hperm.symm⟩

/-! ## Going through lists -/

section Stopping

variable {α β : Type}

/-- Whoever goes through a list stops at one of its members, having passed all before it. -/
def StopsIn (passes stops : α → Prop) (xs : List α) : Prop :=
  ∃ before x after, xs = before ++ x :: after ∧ (∀ y ∈ before, passes y) ∧ stops x

theorem not_stopsIn_nil {passes stops : α → Prop} : ¬ StopsIn passes stops [] := by
  rintro ⟨before, x, after, heq, -⟩
  simp at heq

theorem stopsIn_cons {passes stops : α → Prop} {x : α} {rest : List α} :
    StopsIn passes stops (x :: rest) ↔ stops x ∨ passes x ∧ StopsIn passes stops rest := by
  constructor
  · rintro ⟨before, y, after, heq, hpass, hstop⟩
    cases before with
    | nil =>
      cases heq
      exact .inl hstop
    | cons first before =>
      cases heq
      rw [List.forall_mem_cons] at hpass
      exact .inr ⟨hpass.1, before, y, after, rfl, hpass.2, hstop⟩
  · rintro (hstop | ⟨hpass, before, y, after, rfl, hall, hstop⟩)
    · exact ⟨[], x, rest, rfl, by simp, hstop⟩
    · exact ⟨x :: before, y, after, rfl, List.forall_mem_cons.mpr ⟨hpass, hall⟩, hstop⟩

theorem StopsIn.imp {passes stops passes' stops' : α → Prop} {xs : List α}
    (hpass : ∀ x, passes x → passes' x) (hstop : ∀ x, stops x → stops' x)
    (h : StopsIn passes stops xs) : StopsIn passes' stops' xs := by
  obtain ⟨before, x, after, heq, hall, hx⟩ := h
  exact ⟨before, x, after, heq, fun y hy => hpass y (hall y hy), hstop x hx⟩

/-- The first member that is not passed is the only one to stop at. -/
theorem stopsIn_append_cons {passes stops : α → Prop} {before after : List α} {x : α}
    (hbefore : ∀ y ∈ before, passes y) (hx : ¬ passes x) (h : ∀ y, passes y → ¬ stops y) :
    StopsIn passes stops (before ++ x :: after) ↔ stops x := by
  induction before with
  | nil => simp [stopsIn_cons, hx]
  | cons y before ih =>
    rw [List.forall_mem_cons] at hbefore
    simp [stopsIn_cons, h y hbefore.1, hbefore.1, ih hbefore.2]

theorem stopsIn_congr {passes stops passes' stops' : α → Prop} {xs : List α}
    (hpass : ∀ x ∈ xs, passes x ↔ passes' x) (hstop : ∀ x ∈ xs, stops x ↔ stops' x) :
    StopsIn passes stops xs ↔ StopsIn passes' stops' xs := by
  induction xs with
  | nil => exact iff_of_false not_stopsIn_nil not_stopsIn_nil
  | cons x rest ih =>
    rw [List.forall_mem_cons] at hpass hstop
    rw [stopsIn_cons, stopsIn_cons, hpass.1, hstop.1, ih hpass.2 hstop.2]

/-- Lists that are related place by place are gone through alike. -/
theorem StopsIn.of_forall₂ {R : α → β → Prop} {passes stops : α → Prop}
    {passes' stops' : β → Prop} {xs : List α} {ys : List β} (hxy : List.Forall₂ R xs ys)
    (hpass : ∀ x y, R x y → passes' y → passes x) (hstop : ∀ x y, R x y → stops' y → stops x)
    (h : StopsIn passes' stops' ys) : StopsIn passes stops xs := by
  induction hxy with
  | nil => exact absurd h not_stopsIn_nil
  | cons hr _ ih =>
    refine stopsIn_cons.mpr ((stopsIn_cons.mp h).imp (hstop _ _ hr) ?_)
    exact fun hrest => ⟨hpass _ _ hr hrest.1, ih hrest.2⟩

theorem stopsIn_and_left {P : Prop} {passes stops : α → Prop} {xs : List α} :
    StopsIn passes (fun x => P ∧ stops x) xs ↔ P ∧ StopsIn passes stops xs := by
  constructor
  · rintro ⟨before, x, after, heq, hpass, hp, hstop⟩
    exact ⟨hp, before, x, after, heq, hpass, hstop⟩
  · rintro ⟨hp, before, x, after, heq, hpass, hstop⟩
    exact ⟨before, x, after, heq, hpass, hp, hstop⟩

end Stopping

/-! ## Values that are written out -/

section Refusing

variable {α : Type} {r : Rejection}

theorem asWritten_eq_ok_iff {values : List Value} :
    asWritten values = .ok () ↔ ∀ v ∈ values, v.writable = true := by
  unfold asWritten
  rw [← List.all_eq_true]
  cases values.all Value.writable <;> simp

theorem asWritten_of_writable {values : List Value} (h : ∀ v ∈ values, v.writable = true) :
    asWritten values = .ok () :=
  asWritten_eq_ok_iff.mpr h

theorem asWritten_of_unwritable {values : List Value} {v : Value} (hv : v ∈ values)
    (h : v.writable = false) : asWritten values = .error .illFormed := by
  have hall : values.all Value.writable = false := List.all_eq_false.mpr ⟨v, hv, by simp [h]⟩
  simp [asWritten, hall]

/-- Values are written out one after the other. -/
theorem asWritten_append (values others : List Value) :
    asWritten (values ++ others) = (asWritten values >>= fun _ => asWritten others) := by
  unfold asWritten
  rw [List.all_append]
  cases values.all Value.writable <;> rfl

theorem asWritten_cons (v : Value) (rest : List Value) :
    asWritten (v :: rest) = (asWritten [v] >>= fun _ => asWritten rest) :=
  asWritten_append [v] rest

/-- A rejection whose message can be put together. -/
theorem refuse_of_writable (h : ∀ v ∈ r.written, v.writable = true) :
    (refuse r : Except Failure α) = .error (.rejected r) := by
  rw [refuse, asWritten_of_writable h]
  rfl

/-- A rejection that fails over its own message. -/
theorem refuse_of_unwritable {v : Value} (hv : v ∈ r.written) (h : v.writable = false) :
    (refuse r : Except Failure α) = .error .illFormed := by
  rw [refuse, asWritten_of_unwritable hv h]
  rfl

/-- A rejection never answers. -/
theorem refuse_ne_ok {a : α} : (refuse r : Except Failure α) ≠ .ok a := by
  intro h
  obtain ⟨_, -, hok⟩ := bind_eq_ok_iff.mp h
  cases hok

/-- Nothing comes after a rejection. -/
theorem refuse_bind {β : Type} (r : Rejection) (f : α → Except Failure β) :
    (refuse r >>= f) = refuse r := by
  unfold refuse
  cases asWritten r.written <;> rfl

end Refusing

/-! ## Rejections of one kind -/

section Rejections

variable {α β : Type} {kind : ErrorKind} {P Q S : Prop} {escapes escapes' : Failure → Prop}

/-- An outcome is a rejection of a kind. -/
def RejectedAs (kind : ErrorKind) (x : Except Failure α) : Prop :=
  ∃ r, x = .error (.rejected r) ∧ r.kind = kind

/-- A rejection fails over its message, which writes out what cannot be written. -/
def Sticks (S : Prop) (f : Failure) : Prop :=
  f = .illFormed ∧ S

theorem sticks_or_and {P S T : Prop} {f : Failure} :
    Sticks (S ∨ P ∧ T) f ↔ Sticks S f ∨ P ∧ Sticks T f := by
  simp only [Sticks, and_or_left, and_left_comm]

/-- An outcome that is decided by a condition: an answer where the condition holds, and
where it does not a rejection of a kind, apart from the failures that escape. -/
structure RejectsUnless (kind : ErrorKind) (P : Prop) (x : Except Failure α)
    (escapes : Failure → Prop := fun _ => False) : Prop where
  answers : P → ∃ a, x = .ok a
  escaping : ∀ f, escapes f → x = .error f
  rejects : ¬ P → (∀ f, ¬ escapes f) → RejectedAs kind x

theorem rejectsUnless_ok {a : α} (h : P) : RejectsUnless kind P (.ok a : Except Failure α) :=
  ⟨fun _ => ⟨a, rfl⟩, fun _ => False.elim, fun hn => absurd h hn⟩

/-- A failure that escapes whatever is asked for. -/
theorem rejectsUnless_escaped {e : Failure} (h : ¬ P) :
    RejectsUnless kind P (.error e : Except Failure α) (· = e) :=
  ⟨fun hp => absurd hp h, fun _ hf => hf ▸ rfl, fun _ hn => absurd rfl (hn e)⟩

/-- A rejection sticks exactly when some value that it writes out cannot be written. -/
theorem rejectsUnless_refuse {r : Rejection} (h : ¬ P) (hkind : r.kind = kind)
    (hsticks : (∃ v ∈ r.written, v.writable = false) ↔ S) :
    RejectsUnless kind P (refuse r : Except Failure α) (Sticks S) where
  answers hp := absurd hp h
  escaping := by
    rintro _ ⟨rfl, hs⟩
    obtain ⟨v, hv, hunwritable⟩ := hsticks.mpr hs
    exact refuse_of_unwritable hv hunwritable
  rejects _ hs := by
    refine ⟨r, refuse_of_writable fun v hv => ?_, hkind⟩
    by_contra hv'
    exact hs _ ⟨rfl, hsticks.mp ⟨v, hv, by simpa using hv'⟩⟩

namespace RejectsUnless

variable {x : Except Failure α}

theorem congr (h : RejectsUnless kind P x escapes) (hiff : P ↔ Q)
    (hescapes : ∀ f, escapes f ↔ escapes' f) : RejectsUnless kind Q x escapes' :=
  propext hiff ▸ (funext fun f => propext (hescapes f) : escapes = escapes') ▸ h

theorem of_ok (h : RejectsUnless kind P x escapes) {a : α} (hok : x = .ok a) : P := by
  by_contra hn
  by_cases hf : ∃ f, escapes f
  · obtain ⟨f, hf⟩ := hf
    cases hok.symm.trans (h.escaping f hf)
  · obtain ⟨r, hr, -⟩ := h.rejects hn fun f hf' => hf ⟨f, hf'⟩
    cases hok.symm.trans hr

/-- One decided thing after another: both conditions are asked for, the first one first. -/
theorem bind {f : α → Except Failure β} {later : Failure → Prop}
    (h : RejectsUnless kind P x escapes)
    (hf : ∀ a, x = .ok a → RejectsUnless kind Q (f a) later) :
    RejectsUnless kind (P ∧ Q) (x >>= f) (fun e => escapes e ∨ P ∧ later e) where
  answers := by
    rintro ⟨hp, hq⟩
    obtain ⟨a, ha⟩ := h.answers hp
    obtain ⟨b, hb⟩ := (hf a ha).answers hq
    exact ⟨b, bind_eq_ok_iff.mpr ⟨a, ha, hb⟩⟩
  escaping := by
    rintro e (he | ⟨hp, he⟩)
    · exact bind_eq_error_iff.mpr (.inl (h.escaping e he))
    · obtain ⟨a, ha⟩ := h.answers hp
      exact bind_eq_error_iff.mpr (.inr ⟨a, ha, (hf a ha).escaping e he⟩)
  rejects hn hescapes := by
    simp only [not_or, not_and] at hescapes
    by_cases hp : P
    · obtain ⟨a, ha⟩ := h.answers hp
      obtain ⟨r, hr, hkind⟩ :=
        (hf a ha).rejects (fun hq => hn ⟨hp, hq⟩) fun e => (hescapes e).2 hp
      exact ⟨r, bind_eq_error_iff.mpr (.inr ⟨a, ha, hr⟩), hkind⟩
    · obtain ⟨r, hr, hkind⟩ := h.rejects hp fun e => (hescapes e).1
      exact ⟨r, bind_eq_error_iff.mpr (.inl hr), hkind⟩

/-- A last step that always answers changes nothing. -/
theorem map (h : RejectsUnless kind P x escapes) (f : α → β) :
    RejectsUnless kind P (x >>= fun a => .ok (f a)) escapes :=
  (h.bind fun a _ => rejectsUnless_ok (a := f a) trivial).congr (and_iff_left trivial)
    fun _ => by simp

end RejectsUnless

/-- A rejection that writes out nothing but what can be written. -/
theorem rejectsUnless_error {r : Rejection} (h : ¬ P) (hkind : r.kind = kind)
    (hwritable : ∀ v ∈ r.written, v.writable = true) :
    RejectsUnless kind P (refuse r : Except Failure α) :=
  (rejectsUnless_refuse h hkind (S := False) (iff_false_intro fun ⟨v, hv, hunwritable⟩ => by
    simp [hwritable v hv] at hunwritable)).congr Iff.rfl fun f => iff_of_eq (and_false _)

/-- Reading a list is decided by its members, the first that does not fit first. -/
theorem rejectsUnless_mapM {f : α → Except Failure β} {fits : α → Prop}
    {escapes : α → Failure → Prop} {xs : List α}
    (h : ∀ x ∈ xs, RejectsUnless kind (fits x) (f x) (escapes x)) :
    RejectsUnless kind (∀ x ∈ xs, fits x) (xs.mapM f) (fun e => StopsIn fits (escapes · e) xs) := by
  induction xs with
  | nil =>
    exact (rejectsUnless_ok (by simp)).congr Iff.rfl fun _ => iff_of_false id not_stopsIn_nil
  | cons x rest ih =>
    rw [List.forall_mem_cons] at h
    rw [List.mapM_cons, List.forall_mem_cons]
    simp only [stopsIn_cons]
    exact h.1.bind fun y _ => (ih h.2).map fun ys => y :: ys

/-- One of several conditions that are asked for in order: the kind of rejection of what does
not meet it, and the failures that escape. -/
structure Stage where
  kind : ErrorKind
  passes : Prop
  escapes : Failure → Prop := fun _ => False

/-- An outcome that is decided by conditions which are asked for in order: where one is the
first that fails, it is a rejection of its kind, apart from the failures that escape there. -/
def Decided : List Stage → Except Failure α → Prop
  | [], x => ∃ a, x = .ok a
  | stage :: rest, x => (stage.passes → Decided rest x) ∧
    (∀ f, stage.escapes f → x = .error f) ∧
    (¬ stage.passes → (∀ f, ¬ stage.escapes f) → RejectedAs stage.kind x)

/-- One stage in front of others. -/
theorem RejectsUnless.decided {x : Except Failure α} {f : α → Except Failure β}
    {rest : List Stage} (h : RejectsUnless kind P x escapes)
    (hf : ∀ a, x = .ok a → Decided rest (f a)) :
    Decided (⟨kind, P, escapes⟩ :: rest) (x >>= f) := by
  refine ⟨fun hp => ?_, fun e he => bind_eq_error_iff.mpr (.inl (h.escaping e he)),
    fun hn hescapes => ?_⟩
  · obtain ⟨a, ha⟩ := h.answers hp
    have hrest := hf a ha
    rwa [ha]
  · obtain ⟨r, hr, hkind⟩ := h.rejects hn hescapes
    exact ⟨r, bind_eq_error_iff.mpr (.inl hr), hkind⟩

/-- What is decided in stages is an answer exactly when every condition holds. -/
theorem Decided.exists_ok_iff {x : Except Failure α} {stages : List Stage}
    (h : Decided stages x) : (∃ a, x = .ok a) ↔ ∀ stage ∈ stages, stage.passes := by
  induction stages with
  | nil =>
    obtain ⟨a, ha⟩ := h
    simp [ha]
  | cons stage rest ih =>
    obtain ⟨hrest, hescaping, hreject⟩ := h
    rw [List.forall_mem_cons]
    by_cases hp : stage.passes
    · rw [ih (hrest hp), and_iff_right hp]
    · by_cases hf : ∃ f, stage.escapes f
      · obtain ⟨f, hf⟩ := hf
        simp [hp, hescaping f hf]
      · obtain ⟨r, hr, -⟩ := hreject hp fun f hf' => hf ⟨f, hf'⟩
        simp [hp, hr]

end Rejections

/-! ## Failures that surface as configuration errors -/

/-- A configuration error, of whatever kind. -/
def Failure.IsConfiguration : Failure → Prop
  | rejected r => r.kind.isA .configuration = true
  | _ => False

section Surfacing

variable {α β : Type} {escapes : Failure → Prop}

/-- An outcome whose failures are configuration errors, apart from those that escape. -/
structure Surfaces (escapes : Failure → Prop) (x : Except Failure α) : Prop where
  escaping : ∀ f, escapes f → x = .error f
  surfacing : ∀ f, x = .error f → f.IsConfiguration ∨ escapes f

theorem surfaces_ok {a : α} : Surfaces (fun _ => False) (.ok a : Except Failure α) :=
  ⟨fun _ hf => hf.elim, fun _ hf => by cases hf⟩

theorem surfaces_escaped {e : Failure} :
    Surfaces (fun f => f = e) (.error e : Except Failure α) where
  escaping f hf := hf ▸ rfl
  surfacing f hf := by
    cases hf
    exact .inr rfl

namespace Surfaces

variable {x : Except Failure α}

theorem congr {escapes' : Failure → Prop} (h : Surfaces escapes x)
    (hiff : ∀ f, escapes f ↔ escapes' f) : Surfaces escapes' x :=
  (funext fun f => propext (hiff f) : escapes = escapes') ▸ h

/-- One thing after another: what escapes from the second one does so when the first one
answers. -/
theorem bind {f : α → Except Failure β} {later : α → Failure → Prop} (h : Surfaces escapes x)
    (hf : ∀ a, x = .ok a → Surfaces (later a) (f a)) :
    Surfaces (fun e => escapes e ∨ ∃ a, x = .ok a ∧ later a e) (x >>= f) := by
  cases hx : x with
  | error e =>
    constructor
    · rintro e' (he | ⟨a, ha, -⟩)
      · rw [hx] at h
        cases h.escaping e' he
        rfl
      · cases ha
    · rintro e' ⟨⟩
      exact (h.surfacing e hx).imp_right .inl
  | ok a =>
    constructor
    · rintro e' (he | ⟨a', ha, he⟩)
      · cases hx.symm.trans (h.escaping e' he)
      · cases ha
        exact (hf a hx).escaping e' he
    · intro e' he'
      exact ((hf a hx).surfacing e' he').imp_right fun he => .inr ⟨a, rfl, he⟩

theorem map {f : α → β} (h : Surfaces escapes x) : Surfaces escapes (f <$> x) := by
  cases x with
  | ok a =>
    refine ⟨fun e he => ?_, fun e he => by cases he⟩
    cases h.escaping e he
  | error e' =>
    refine ⟨fun e he => ?_, fun e he => ?_⟩
    · cases h.escaping e he
      rfl
    · cases he
      exact h.surfacing _ rfl

/-- Behind a check, the rest lets escape what it does when the check is passed. -/
theorem guard {check : Except Failure Unit} {y : Except Failure β} {later : Failure → Prop}
    (h : Surfaces escapes check) (hy : Surfaces later y) :
    Surfaces (fun e => escapes e ∨ check = .ok () ∧ later e) (check >>= fun _ => y) := by
  refine (h.bind fun _ _ => hy).congr fun e => ?_
  rw [Unique.exists_iff]

/-- A failure of another kind than those of configuration errors is one that escapes. -/
theorem error_iff (h : Surfaces escapes x) {f : Failure} (hf : ¬ f.IsConfiguration) :
    x = .error f ↔ escapes f :=
  ⟨fun hx => (h.surfacing f hx).resolve_left hf, h.escaping f⟩

end Surfaces

/-- A decided outcome fails with a configuration error, unless another failure escapes. -/
theorem RejectsUnless.surfaces {kind : ErrorKind} {P : Prop} {x : Except Failure α}
    (h : RejectsUnless kind P x escapes) (hkind : kind.isA .configuration = true) :
    Surfaces escapes x where
  escaping := h.escaping
  surfacing f hf := by
    by_cases he : ∃ e, escapes e
    · obtain ⟨e, he⟩ := he
      cases hf.symm.trans (h.escaping e he)
      exact .inr he
    · have hn : ¬ P := by
        intro hp
        obtain ⟨a, ha⟩ := h.answers hp
        cases hf.symm.trans ha
      obtain ⟨r, hr, rfl⟩ := h.rejects hn fun e he' => he ⟨e, he'⟩
      cases hf.symm.trans hr
      exact .inl hkind

/-- A rejection that is a configuration error surfaces, unless it cannot be written out. -/
theorem surfaces_refuse {r : Rejection} (h : r.kind.isA .configuration = true) :
    Surfaces (Sticks (∃ v ∈ r.written, v.writable = false)) (refuse r : Except Failure α) :=
  (rejectsUnless_refuse (P := False) id rfl Iff.rfl).surfaces h

theorem surfaces_refuse_of_writable {r : Rejection} (h : r.kind.isA .configuration = true)
    (hwritable : ∀ v ∈ r.written, v.writable = true) :
    Surfaces (fun _ => False) (refuse r : Except Failure α) :=
  (rejectsUnless_error (P := False) id rfl hwritable).surfaces h

/-- What escapes from reading a list escapes from the member where reading stops. -/
theorem surfaces_mapM {f : α → Except Failure β} {escapes : α → Failure → Prop} {xs : List α}
    (h : ∀ x ∈ xs, Surfaces (escapes x) (f x)) :
    Surfaces (fun e => StopsIn (fun x => ∃ y, f x = .ok y) (escapes · e) xs) (xs.mapM f) := by
  induction xs with
  | nil => exact surfaces_ok.congr fun _ => iff_of_false id not_stopsIn_nil
  | cons x rest ih =>
    rw [List.forall_mem_cons] at h
    rw [List.mapM_cons]
    refine (h.1.bind fun y _ => (ih h.2).bind fun ys _ => surfaces_ok).congr fun e => ?_
    simp only [stopsIn_cons, and_false, exists_false, or_false, exists_and_right]

end Surfacing

end Clearance
