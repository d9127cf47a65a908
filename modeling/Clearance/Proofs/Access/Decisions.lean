import Clearance.Access
import Clearance.Proofs.Resolution.Kind

/-! What a check does, in order.

A check first resolves what to ask for, which is the same whether or not it can await an
answer. Then it asks the principal, and at last it writes down what it has decided. The four
forms of a check are written out one by one. Still they take the same course
(`perform_holder`): the two checks differ in what they resolve alone, and the two modes in what
they make of an answer that has to be awaited (`perform_decides`). -/
namespace Clearance

/-- What a mode makes of an answer. -/
def Answer.decide (mode : Mode) (check : Check) (answer : Answer) : Run Bool :=
  match mode with
  | .direct => answer.atOnce check
  | .awaiting => answer.awaited.andThen fun v => Run.answer v.isTrue

/-- An answer that is there needs no awaiting. -/
theorem Answer.decide_now (mode : Mode) (check : Check) (v : Value) :
    (now v).decide mode check = Run.answer v.isTrue := by
  cases mode <;> rfl

/-- The combinator at the top of what a check asks for. -/
def Check.useAnd : Check → Bool
  | access => false
  | fieldAccess => true

/-- The field that a check decides about; it is null for the whole entity type. -/
def Check.place (field : Value) : Check → Value
  | access => .null
  | fieldAccess => field

/-- What shows that access is checked: that a principal is called, or that a decision is
written down. -/
def Event.ofCheck : Event → Bool
  | logged notice => notice.channel == .access
  | hookCalled .. => false
  | principalCalled .. => true

namespace Run

variable {α β : Type}

/-- A run in which no access is checked. -/
def Quiet (run : Run α) : Prop :=
  ∀ e ∈ run.events, e.ofCheck = false

theorem Quiet.filter {run : Run α} (h : run.Quiet) : run.events.filter Event.ofCheck = [] :=
  List.filter_eq_nil_iff.mpr fun e he => Bool.eq_false_iff.mp (h e he)

theorem quiet_answer (a : α) : (answer a).Quiet := by
  simp [Quiet, answer]

theorem quiet_ofExcept (x : Except Failure α) : (ofExcept x).Quiet := by
  simp [Quiet, ofExcept]

theorem quiet_reject (r : Rejection) : (reject r : Run α).Quiet :=
  quiet_ofExcept _

theorem quiet_log_resolver (level : LogLevel) (message : String) :
    (log .resolver level message).Quiet := by
  simp [Quiet, log, emit, Event.ofCheck]

theorem Quiet.andThen {x : Run α} {f : α → Run β} (hx : x.Quiet)
    (hf : ∀ a, x.outcome = .ok a → (f a).Quiet) : (x.andThen f).Quiet := by
  cases h : x.outcome with
  | error e =>
    rw [andThen_of_error h]
    exact hx
  | ok a =>
    rw [andThen_of_ok h]
    exact List.forall_mem_append.mpr ⟨hx, hf a h⟩

end Run

namespace HookTable

variable {t : HookTable} {kind field : Value} {hook : Hook}

/-- Hooks that check no access themselves. -/
def Quiet (t : HookTable) : Prop :=
  ∀ hook ∈ t.access.map Prod.snd ++ t.fields.map Prod.snd, ∀ arguments,
    (hook.call arguments).Quiet

theorem Quiet.of_findAccess (h : t.Quiet) (hfind : t.findAccess kind = .ok (some hook))
    (arguments : List Value) : (hook.call arguments).Quiet := by
  obtain ⟨_, -, hfind⟩ := bind_eq_ok_iff.mp hfind
  have hlookup : t.access.lookup kind = some hook := Except.ok.inj hfind
  exact h hook (List.mem_append_left _ (Entries.mem_of_lookup hlookup)) arguments

theorem Quiet.of_findField (h : t.Quiet) (hfind : t.findField field kind = .ok (some hook))
    (arguments : List Value) : (hook.call arguments).Quiet := by
  obtain ⟨_, -, hfind⟩ := bind_eq_ok_iff.mp hfind
  obtain ⟨_, -, hfind⟩ := bind_eq_ok_iff.mp hfind
  have hmem : hook ∈ t.fields.map Prod.snd := by
    have hlookup : t.fieldHook? field kind = some hook := Except.ok.inj hfind
    unfold fieldHook? at hlookup
    split at hlookup
    · rename_i hown
      cases hlookup
      exact Entries.mem_of_lookup hown
    · exact Entries.mem_of_lookup hlookup
  exact h hook (List.mem_append_right _ hmem) arguments

end HookTable

namespace Holder

/-- A holder that checks no access itself, neither at once nor while it is awaited. -/
def Quiet (h : Holder) : Prop :=
  ∀ credentials useAnd record, (h.ask credentials useAnd record).Quiet ∧
    ∀ run, (h.ask credentials useAnd record).outcome = .ok (.later run) → run.Quiet

/-- A holder that shows every time that it is called. -/
def marked (h : Holder) : Holder where
  ask credentials useAnd record :=
    (Run.emit (.principalCalled credentials useAnd record)).andThen fun _ =>
      h.ask credentials useAnd record

end Holder

namespace Policy

variable {p : Policy} {field kind record strict : Value} {check : Check} {mode : Mode}
  {holder : Holder}

/-! ## Both checks in one -/

/-- A check of the entity type, or of a field of it. -/
def perform (p : Policy) (check : Check) (mode : Mode) (principal : Principal)
    (field kind record strict : Value) : Run Bool :=
  match check with
  | .access => checkAccess mode principal p kind record strict
  | .fieldAccess => checkFieldAccess mode principal p field kind record strict

/-- The groups of names that a field check asks for: those of the entity type, and those of
the field unless it adds nothing. -/
def groups (names fieldNames : List Value) : Value :=
  .list ((names :: if fieldNames.isEmpty then [] else [fieldNames]).map .list)

/-- What a check resolves to ask for; nothing when the field is forbidden. -/
def inquiry (p : Policy) (check : Check) (field kind record strict : Value) :
    Run (Option Value) :=
  match check with
  | .access => (p.resolveAccess kind record strict).andThen fun names =>
      Run.answer (some (.list names))
  | .fieldAccess => (p.resolveField field kind record).andThen fun
    | .forbidden => Run.answer none
    | .names fieldNames => (p.resolveAccess kind record strict).andThen fun names =>
        Run.answer (some (groups names fieldNames))

/-- **What is asked for**, by what the entity type and the field resolve to. -/
structure Inquires (p : Policy) (field kind record strict : Value)
    (inquiry : Check → Run (Option Value)) : Prop where
  access : inquiry .access = ⟨(p.resolveAccess kind record strict).events,
    (p.resolveAccess kind record strict).outcome.map fun names => some (.list names)⟩
  unresolved {e : Failure} (h : (p.resolveField field kind record).outcome = .error e) :
    inquiry .fieldAccess = ⟨(p.resolveField field kind record).events, .error e⟩
  forbidden (h : (p.resolveField field kind record).outcome = .ok .forbidden) :
    inquiry .fieldAccess = ⟨(p.resolveField field kind record).events, .ok none⟩
  names {fieldNames : List Value}
    (h : (p.resolveField field kind record).outcome = .ok (.names fieldNames)) :
    inquiry .fieldAccess = ⟨(p.resolveField field kind record).events ++
      (p.resolveAccess kind record strict).events,
      (p.resolveAccess kind record strict).outcome.map fun names =>
        some (groups names fieldNames)⟩

theorem inquires (p : Policy) (field kind record strict : Value) :
    p.Inquires field kind record strict (p.inquiry · field kind record strict) where
  access := Run.andThen_answer _ _
  unresolved h := Run.andThen_of_error h _
  forbidden h := (Run.andThen_of_ok h _).trans (congrArg (Run.mk · _) (List.append_nil _))
  names h := by
    refine (Run.andThen_of_ok h _).trans ?_
    dsimp only
    rw [Run.andThen_answer]

/-- The record of a decision. -/
def decision (p : Policy) (kind field : Value) (granted : Bool) : Event :=
  .logged ⟨.access, .debug, p.decisionText kind field granted, some p.entityType⟩

theorem decided_eq (p : Policy) (kind field : Value) (granted : Bool) :
    p.decided kind field granted = ⟨[p.decision kind field granted], .ok granted⟩ := rfl

/-- The end of a check: the holder is asked, and the truth of the answer is the decision. -/
def judged (p : Policy) (check : Check) (mode : Mode) (holder : Holder)
    (request field kind record : Value) : Run Bool :=
  ((holder.ask request check.useAnd record).andThen (·.decide mode check)).andThen
    (p.decided kind (check.place field))

theorem checkAccess_holder (p : Policy) (mode : Mode) (holder : Holder)
    (field kind record strict : Value) :
    checkAccess mode (.holder holder) p kind record strict =
      (p.resolveAccess kind record strict).andThen fun names =>
        p.judged .access mode holder (.list names) field kind record := by
  cases mode with
  | direct =>
    simp only [checkAccess, hasAccess, judged, Principal.require, Run.ofExcept_ok, Run.bind_eq,
      Run.answer_andThen, Run.andThen_assoc]
    rfl
  | awaiting =>
    simp only [checkAccess, hasAccessAwaited, judged, Answer.decide, Principal.require,
      Run.ofExcept_ok, Run.bind_eq, Run.answer_andThen, Run.andThen_assoc]
    rfl

theorem checkFieldAccess_holder (p : Policy) (mode : Mode) (holder : Holder)
    (field kind record strict : Value) :
    checkFieldAccess mode (.holder holder) p field kind record strict =
      (p.fieldRequest field kind record strict).andThen fun
        | none => p.decided kind field false
        | some groups =>
          p.judged .fieldAccess mode holder (.list (groups.map .list)) field kind record := by
  cases mode with
  | direct =>
    simp only [checkFieldAccess, hasFieldAccess, judged, Principal.require, Run.ofExcept_ok,
      Run.bind_eq, Run.answer_andThen, Run.andThen_assoc]
    rfl
  | awaiting =>
    simp only [checkFieldAccess, hasFieldAccessAwaited, judged, Answer.decide, Principal.require,
      Run.ofExcept_ok, Run.bind_eq, Run.answer_andThen, Run.andThen_assoc]
    rfl

/-- **All four checks** take the same steps in the same order. -/
theorem perform_holder (p : Policy) (check : Check) (mode : Mode) (holder : Holder)
    (field kind record strict : Value) :
    p.perform check mode (.holder holder) field kind record strict =
      (p.inquiry check field kind record strict).andThen fun
        | none => p.decided kind (check.place field) false
        | some request => p.judged check mode holder request field kind record := by
  cases check with
  | access =>
    rw [perform, checkAccess_holder p mode holder field, inquiry, Run.andThen_assoc]
    simp only [Run.answer_andThen]
  | fieldAccess =>
    rw [perform, checkFieldAccess_holder, inquiry, fieldRequest, Run.bind_eq, Run.andThen_assoc,
      Run.andThen_assoc]
    congr 1
    funext resolution
    cases resolution with
    | forbidden => rfl
    | names fieldNames =>
      simp only [Run.bind_eq, Run.pure_eq, Run.andThen_assoc, Run.answer_andThen]
      rfl

theorem perform_of_error {e : Failure}
    (h : (p.inquiry check field kind record strict).outcome = .error e) (mode : Mode)
    (holder : Holder) : p.perform check mode (.holder holder) field kind record strict =
      ⟨(p.inquiry check field kind record strict).events, .error e⟩ := by
  rw [perform_holder, Run.andThen_of_error h]

/-- On a forbidden field the decision is made before anybody is asked. -/
theorem perform_of_forbidden (h : (p.inquiry check field kind record strict).outcome = .ok none)
    (mode : Mode) (holder : Holder) :
    p.perform check mode (.holder holder) field kind record strict =
      ⟨(p.inquiry check field kind record strict).events ++
        [p.decision kind (check.place field) false], .ok false⟩ := by
  rw [perform_holder, Run.andThen_of_ok h]
  rfl

theorem perform_of_request {request : Value}
    (h : (p.inquiry check field kind record strict).outcome = .ok (some request)) (mode : Mode)
    (holder : Holder) : p.perform check mode (.holder holder) field kind record strict =
      ⟨(p.inquiry check field kind record strict).events ++
          (p.judged check mode holder request field kind record).events,
        (p.judged check mode holder request field kind record).outcome⟩ := by
  rw [perform_holder, Run.andThen_of_ok h]

/-! ## The answer -/

section Answers

variable {request : Value}

theorem judged_of_error {e : Failure}
    (h : (holder.ask request check.useAnd record).outcome = .error e) (mode : Mode) :
    p.judged check mode holder request field kind record =
      ⟨(holder.ask request check.useAnd record).events, .error e⟩ := by
  rw [judged, Run.andThen_of_error h, Run.andThen_of_error rfl]

theorem judged_of_now {v : Value}
    (h : (holder.ask request check.useAnd record).outcome = .ok (.now v)) (mode : Mode) :
    p.judged check mode holder request field kind record =
      ⟨(holder.ask request check.useAnd record).events ++
        [p.decision kind (check.place field) v.isTrue], .ok v.isTrue⟩ := by
  rw [judged, Run.andThen_assoc, Run.andThen_of_ok h, Answer.decide_now, Run.answer_andThen]
  rfl

/-- A direct check refuses to wait, and decides nothing. -/
theorem judged_direct_of_later {later : Run Value}
    (h : (holder.ask request check.useAnd record).outcome = .ok (.later later)) :
    p.judged check .direct holder request field kind record =
      ⟨(holder.ask request check.useAnd record).events,
        .error (.rejected (.awaitableAnswer check))⟩ := by
  rw [judged, Run.andThen_assoc, Run.andThen_of_ok h]
  exact congrArg (Run.mk · _) (List.append_nil _)

theorem judged_awaiting_of_later {later : Run Value}
    (h : (holder.ask request check.useAnd record).outcome = .ok (.later later)) :
    p.judged check .awaiting holder request field kind record =
      (Run.mk (holder.ask request check.useAnd record).events (.ok ())).andThen fun _ =>
        later.andThen fun v => p.decided kind (check.place field) v.isTrue := by
  rw [judged, Run.andThen_assoc, Run.andThen_of_ok h]
  simp only [Answer.decide, Run.andThen_assoc, Run.answer_andThen]
  rfl

end Answers

/-! ## Resolving is quiet -/

section Quiet

variable (h : p.hooks.Quiet)
include h

theorem quiet_askHook (kind record : Value) : (p.askHook kind record).Quiet := by
  unfold askHook
  refine (Run.quiet_ofExcept _).andThen fun hook hhook => ?_
  cases hook with
  | none => exact Run.quiet_answer _
  | some hook =>
    refine (h.of_findAccess hhook _).andThen fun answer _ => ?_
    split
    · exact Run.quiet_answer _
    · split
      · exact Run.quiet_answer _
      · exact Run.quiet_reject _

theorem quiet_resolveAccess (kind record strict : Value) :
    (p.resolveAccess kind record strict).Quiet := by
  have hrequested : (p.requestedCredential kind record (p.isStrict strict)).Quiet := by
    unfold requestedCredential
    refine (quiet_askHook h kind record).andThen fun answered _ => ?_
    cases answered with
    | some credential => exact Run.quiet_answer _
    | none =>
      dsimp only
      split
      · refine (Run.quiet_ofExcept _).andThen fun declared _ => ?_
        split
        · exact Run.quiet_answer _
        · exact Run.quiet_reject _
      · exact Run.quiet_answer _
  unfold resolveAccess
  refine hrequested.andThen fun credential _ => (Run.quiet_ofExcept _).andThen fun names _ => ?_
  exact (Run.quiet_log_resolver _ _).andThen fun _ _ => Run.quiet_answer _

omit h in
theorem quiet_resolveByPolicy (p : Policy) (field kind : Value) :
    (p.resolveByPolicy field kind).Quiet := by
  unfold resolveByPolicy
  refine (Run.quiet_ofExcept _).andThen fun policy _ => ?_
  cases policy with
  | none => exact Run.quiet_answer _
  | some policy =>
    dsimp only
    split
    · exact Run.quiet_answer _
    · exact (Run.quiet_log_resolver _ _).andThen fun _ _ => Run.quiet_answer _
    · exact Run.quiet_answer _

theorem quiet_resolveField (field kind record : Value) :
    (p.resolveField field kind record).Quiet := by
  unfold resolveField
  refine (Run.quiet_ofExcept _).andThen fun hook hhook => ?_
  cases hook with
  | none => exact quiet_resolveByPolicy p field kind
  | some hook =>
    refine (h.of_findField hhook _).andThen fun answer _ => ?_
    unfold resolveByAnswer
    split
    · exact (Run.quiet_log_resolver _ _).andThen fun _ _ => Run.quiet_answer _
    · exact (Run.quiet_log_resolver _ _).andThen fun _ _ => Run.quiet_answer _
    · exact Run.quiet_answer _
    · exact quiet_resolveByPolicy p field kind
    · split
      · exact Run.quiet_answer _
      · exact Run.quiet_reject _

theorem quiet_inquiry (check : Check) (field kind record strict : Value) :
    (p.inquiry check field kind record strict).Quiet := by
  cases check with
  | access => exact (quiet_resolveAccess h kind record strict).andThen fun _ _ => Run.quiet_answer _
  | fieldAccess =>
    refine (quiet_resolveField h field kind record).andThen fun resolution _ => ?_
    cases resolution with
    | forbidden => exact Run.quiet_answer _
    | names names =>
      exact (quiet_resolveAccess h kind record strict).andThen fun _ _ => Run.quiet_answer _

end Quiet

/-! ## What can be seen of a check -/

/-- A decision is written down where there is one, and it is the last thing that happens. -/
theorem filter_andThen_decided {x : Run Bool} (hx : x.Quiet) (p : Policy) (kind field : Value) :
    (x.andThen (p.decided kind field)).events.filter Event.ofCheck =
      match (x.andThen (p.decided kind field)).outcome with
      | .ok granted => [p.decision kind field granted]
      | .error _ => [] := by
  cases h : x.outcome with
  | error e =>
    rw [Run.andThen_of_error h]
    exact hx.filter
  | ok granted =>
    rw [Run.andThen_of_ok h, decided_eq, List.filter_append, hx.filter]
    rfl

theorem quiet_decide (hholder : holder.Quiet) (mode : Mode) (check : Check)
    (request record : Value) (useAnd : Bool) :
    ((holder.ask request useAnd record).andThen (·.decide mode check)).Quiet := by
  refine (hholder request useAnd record).1.andThen fun answer hanswer => ?_
  cases answer with
  | now v =>
    rw [Answer.decide_now]
    exact Run.quiet_answer _
  | later run =>
    cases mode with
    | direct => exact Run.quiet_reject _
    | awaiting =>
      exact ((hholder request useAnd record).2 run hanswer).andThen fun _ _ => Run.quiet_answer _

/-- A holder is asked once, and then a decision is written down where there is one. -/
theorem filter_judged (hholder : holder.Quiet) (p : Policy) (check : Check) (mode : Mode)
    (request field kind record : Value) :
    (p.judged check mode holder.marked request field kind record).events.filter Event.ofCheck =
      .principalCalled request check.useAnd record ::
        match (p.judged check mode holder.marked request field kind record).outcome with
        | .ok granted => [p.decision kind (check.place field) granted]
        | .error _ => [] := by
  have hcall : p.judged check mode holder.marked request field kind record =
      (Run.emit (.principalCalled request check.useAnd record)).andThen fun _ =>
        p.judged check mode holder request field kind record := by
    simp only [judged, Holder.marked, Run.andThen_assoc]
  have hquiet := quiet_decide hholder mode check request record check.useAnd
  rw [hcall, Run.outcome_emit_andThen]
  exact congrArg (List.cons _) (filter_andThen_decided hquiet p kind (check.place field))

/-- A decision says that access is granted exactly when it is. -/
theorem granted_suffix_decisionText (p : Policy) (kind field : Value) (granted : Bool) :
    "granted".toList <:+ (p.decisionText kind field granted).toList ↔ granted = true := by
  unfold decisionText
  rw [String.toList_append]
  cases granted with
  | true => exact iff_of_true (List.suffix_append _ _) rfl
  | false =>
    refine iff_of_false (fun hsuffix => ?_) Bool.false_ne_true
    have hreversed := List.reverse_prefix.mpr hsuffix
    rw [List.reverse_append] at hreversed
    simp at hreversed

/-! ## How a check proceeds -/

/-- How a check proceeds in either mode, by what it finds to ask for and by what it is told.
Only an answer that has to be awaited makes a difference between the modes. -/
structure Proceeds (check : Check) (inquiry : Run (Option Value)) (ask : Value → Run Answer)
    (decision : Bool → Event) (run : Mode → Run Bool) : Prop where
  unresolved {e : Failure} (h : inquiry.outcome = .error e) (mode : Mode) :
    run mode = ⟨inquiry.events, .error e⟩
  forbidden (h : inquiry.outcome = .ok none) (mode : Mode) :
    run mode = ⟨inquiry.events ++ [decision false], .ok false⟩
  unanswered {request : Value} {e : Failure} (h : inquiry.outcome = .ok (some request))
    (hasked : (ask request).outcome = .error e) (mode : Mode) :
    run mode = ⟨inquiry.events ++ (ask request).events, .error e⟩
  answered {request v : Value} (h : inquiry.outcome = .ok (some request))
    (hasked : (ask request).outcome = .ok (.now v)) (mode : Mode) :
    run mode = ⟨inquiry.events ++ ((ask request).events ++ [decision v.isTrue]), .ok v.isTrue⟩
  refused {request : Value} {later : Run Value} (h : inquiry.outcome = .ok (some request))
    (hasked : (ask request).outcome = .ok (.later later)) :
    run .direct =
      ⟨inquiry.events ++ (ask request).events, .error (.rejected (.awaitableAnswer check))⟩
  failed {request : Value} {later : Run Value} {e : Failure}
    (h : inquiry.outcome = .ok (some request))
    (hasked : (ask request).outcome = .ok (.later later)) (hlater : later.outcome = .error e) :
    run .awaiting =
      ⟨inquiry.events ++ ((ask request).events ++ later.events), .error e⟩
  awaited {request v : Value} {later : Run Value} (h : inquiry.outcome = .ok (some request))
    (hasked : (ask request).outcome = .ok (.later later)) (hlater : later.outcome = .ok v) :
    run .awaiting = ⟨inquiry.events ++ ((ask request).events ++ (later.events ++
      [decision v.isTrue])), .ok v.isTrue⟩

theorem proceeds_perform (p : Policy) (check : Check) (holder : Holder)
    (field kind record strict : Value) :
    Proceeds check (p.inquiry check field kind record strict)
      (holder.ask · check.useAnd record) (p.decision kind (check.place field))
      (p.perform check · (.holder holder) field kind record strict) where
  unresolved h mode := perform_of_error h mode holder
  forbidden h mode := perform_of_forbidden h mode holder
  unanswered h hasked mode := by rw [perform_of_request h, judged_of_error hasked]
  answered h hasked mode := by rw [perform_of_request h, judged_of_now hasked]
  refused h hasked := by rw [perform_of_request h, judged_direct_of_later hasked]
  failed h hasked hlater := by
    rw [perform_of_request h, judged_awaiting_of_later hasked, Run.andThen_of_error hlater]
    rfl
  awaited h hasked hlater := by
    rw [perform_of_request h, judged_awaiting_of_later hasked, Run.andThen_of_ok hlater]
    rfl

/-- **Every check takes the same course**, whether it can await answers or not. Whoever is
no holder is refused before anything else happens. What to ask for is resolved from the
entity type and the field alone. A holder is asked once, for what was resolved, or never when
resolving fails or the field is forbidden, and a decision is written down exactly when the
check ends in one. -/
theorem perform_decides (p : Policy) (check : Check) (field kind record strict : Value) :
    (∀ mode, p.perform check mode .nobody field kind record strict =
      Run.fail (.rejected .noPrincipal)) ∧
    (∀ mode typeName, p.perform check mode (.stranger typeName) field kind record strict =
      Run.fail (.rejected (.notHolder typeName))) ∧
    p.Inquires field kind record strict (p.inquiry · field kind record strict) ∧
    (∀ holder : Holder, Proceeds check (p.inquiry check field kind record strict)
      (holder.ask · check.useAnd record) (p.decision kind (check.place field))
      (p.perform check · (.holder holder) field kind record strict)) ∧
    (∀ granted, "granted".toList <:+ (p.decisionText kind (check.place field) granted).toList ↔
      granted = true) ∧
    (p.hooks.Quiet → ∀ holder : Holder, holder.Quiet → ∀ mode,
      (p.perform check mode (.holder holder.marked) field kind record strict).events.filter
          Event.ofCheck =
        (match (p.inquiry check field kind record strict).outcome with
          | .ok (some request) => [.principalCalled request check.useAnd record]
          | _ => []) ++
        match (p.perform check mode (.holder holder.marked) field kind record strict).outcome with
          | .ok granted => [p.decision kind (check.place field) granted]
          | .error _ => []) := by
  refine ⟨?_, ?_, inquires p field kind record strict,
    fun holder => proceeds_perform p check holder field kind record strict,
    fun granted => granted_suffix_decisionText p kind (check.place field) granted, ?_⟩
  · intro mode
    cases check <;> cases mode <;> rfl
  · intro mode typeName
    cases check <;> cases mode <;> rfl
  · intro hhooks holder hholder mode
    have hquiet := (quiet_inquiry hhooks check field kind record strict).filter
    cases h : (p.inquiry check field kind record strict).outcome with
    | error e =>
      rw [perform_of_error h]
      exact hquiet
    | ok found =>
      cases found with
      | none =>
        rw [perform_of_forbidden h, List.filter_append, hquiet]
        rfl
      | some request =>
        rw [perform_of_request h, List.filter_append, hquiet,
          filter_judged hholder p check mode request field kind record]
        rfl

/-- A holder of everything that has to be awaited. -/
def slowHolder : Holder :=
  ⟨fun _ _ _ => Run.answer (.later (Run.answer (.text "yes")))⟩

/-- The slow holder is called once for a request to view. A check that cannot await the answer
is refused and decides nothing, and one that can grants. -/
structure GrantsLate (p : Policy) (check : Check) (field request : Value)
    (run : Mode → Run Bool) : Prop where
  refused : (run .direct).outcome = .error (.rejected (.awaitableAnswer check))
  undecided : (run .direct).events.filter Event.ofCheck =
    [.principalCalled request check.useAnd .null]
  granted : (run .awaiting).outcome = .ok true
  decided : (run .awaiting).events.filter Event.ofCheck =
    [.principalCalled request check.useAnd .null,
      p.decision (.text "view") (check.place field) true]

/-- Whatever a check finds to ask for, the slow holder grants it late. -/
theorem grantsLate {request : Value} {inquiry : Run (Option Value)} {run : Mode → Run Bool}
    (hfound : inquiry.outcome = .ok (some request))
    (hproceeds : Proceeds check inquiry (slowHolder.marked.ask · check.useAnd .null)
      (p.decision (.text "view") (check.place field)) run)
    (htrace : ∀ mode, (run mode).events.filter Event.ofCheck =
      (match inquiry.outcome with
        | .ok (some request) => [.principalCalled request check.useAnd .null]
        | _ => []) ++
      match (run mode).outcome with
        | .ok granted => [p.decision (.text "view") (check.place field) granted]
        | .error _ => []) : p.GrantsLate check field request run := by
  have hdirect := congrArg Run.outcome (hproceeds.refused hfound rfl)
  have hawaiting := congrArg Run.outcome (hproceeds.awaited hfound rfl rfl)
  have hundecided := htrace .direct
  have hdecided := htrace .awaiting
  rw [hfound, hdirect] at hundecided
  rw [hfound, hawaiting] at hdecided
  exact ⟨hdirect, hundecided, hawaiting, hdecided⟩

/-- Drafts with a body that whoever edits them views, and an author whom nobody sees. -/
def signedPlan : Plan :=
  { draftPlan with
    fields := .dict [(.text "body", .dict [(.text "view", .text "edit")]),
      (.text "author", .dict [(.text "view", .forbidden)])] }

theorem quiet_slowHolder : slowHolder.Quiet := by
  refine fun _ _ _ => ⟨Run.quiet_answer _, fun run hrun => ?_⟩
  cases hrun
  exact Run.quiet_answer _

/-- What viewing a signed draft, its body and its author takes. -/
theorem resolved_signedPlan : ∃ p names fieldNames, (build signedPlan).outcome = .ok p ∧
    (p.resolveAccess (.text "view") .null .null).outcome = .ok names ∧
    names.map Value.word = ["Draft___view", "Draft___edit"] ∧
    (p.resolveField (.text "body") (.text "view") .null).outcome = .ok (.names fieldNames) ∧
    fieldNames.map Value.word = ["Draft___edit", "Draft___view"] ∧
    (p.resolveField (.text "author") (.text "view") .null).outcome = .ok .forbidden := by
  have hbuilt : ((build signedPlan).outcome.toOption.any fun p =>
      ((p.resolveAccess (.text "view") .null .null).outcome.toOption.any fun names =>
        names.map Value.word == ["Draft___view", "Draft___edit"]) &&
      ((p.resolveField (.text "body") (.text "view") .null).outcome.toOption.any fun
        | .names names => names.map Value.word == ["Draft___edit", "Draft___view"]
        | .forbidden => false) &&
      (p.resolveField (.text "author") (.text "view") .null).outcome.toOption.any
        (· matches .forbidden)) = true := by decide +kernel
  obtain ⟨p, hp, htest⟩ := exists_ok_of_any hbuilt
  simp only [Bool.and_eq_true] at htest
  obtain ⟨⟨hview, hbody⟩, hauthor⟩ := htest
  obtain ⟨names, hnames, hwords⟩ := exists_ok_of_any hview
  obtain ⟨found, hfound, hlisted⟩ := exists_ok_of_any hbody
  obtain ⟨hidden, hhidden, hforbidden⟩ := exists_ok_of_any hauthor
  cases found with
  | forbidden => cases hlisted
  | names fieldNames =>
    cases hidden with
    | names _ => cases hforbidden
    | forbidden =>
      exact ⟨p, names, fieldNames, hp, hnames, by simpa using hwords, hfound,
        by simpa using hlisted, hhidden⟩

theorem quiet_hooks_signedPlan {p : Policy} (hp : (build signedPlan).outcome = .ok p) :
    p.hooks.Quiet := by
  obtain ⟨registry, h⟩ := built_of_build hp
  rw [h.hooks]
  intro hook hmem arguments
  obtain rfl : hook = publishHook := List.mem_singleton.mp hmem
  exact Run.quiet_answer _

/-- The slow holder is asked for a draft and for its body in one call each, whichever mode the
check is made in, and never for the author of the draft. -/
theorem perform_signedPlan : ∃ p names fieldNames, (build signedPlan).outcome = .ok p ∧
    p.hooks.Quiet ∧ slowHolder.Quiet ∧ names.map Value.word = ["Draft___view", "Draft___edit"] ∧
    fieldNames.map Value.word = ["Draft___edit", "Draft___view"] ∧
    p.GrantsLate .access .null (.list names) (p.perform .access · (.holder slowHolder.marked) .null
      (.text "view") .null .null) ∧
    p.GrantsLate .fieldAccess (.text "body") (.list [.list names, .list fieldNames])
      (p.perform .fieldAccess · (.holder slowHolder.marked) (.text "body") (.text "view") .null
        .null) ∧
    ∀ mode, (p.perform .fieldAccess mode (.holder slowHolder.marked) (.text "author")
        (.text "view") .null .null).outcome = .ok false ∧
      (p.perform .fieldAccess mode (.holder slowHolder.marked) (.text "author")
        (.text "view") .null .null).events.filter Event.ofCheck =
          [p.decision (.text "view") (.text "author") false] := by
  obtain ⟨p, names, fieldNames, hp, hnames, hwords, hbody, hlisted, hauthor⟩ := resolved_signedPlan
  have hhooks := quiet_hooks_signedPlan hp
  obtain ⟨-, -, hentity, hcheck, -, htrace⟩ :=
    perform_decides p .access .null (.text "view") .null .null
  obtain ⟨-, -, hfield, hcheckBody, -, htraceBody⟩ :=
    perform_decides p .fieldAccess (.text "body") (.text "view") .null .null
  obtain ⟨-, -, hhidden, hcheckAuthor, -, htraceAuthor⟩ :=
    perform_decides p .fieldAccess (.text "author") (.text "view") .null .null
  have hasks : (p.inquiry .access .null (.text "view") .null .null).outcome =
      .ok (some (.list names)) := by
    rw [hentity.access, hnames]
    rfl
  have hasksBody : (p.inquiry .fieldAccess (.text "body") (.text "view") .null .null).outcome =
      .ok (some (.list [.list names, .list fieldNames])) := by
    rw [hfield.names hbody, hnames]
    cases fieldNames with
    | nil => cases hlisted
    | cons first rest => rfl
  refine ⟨p, names, fieldNames, hp, hhooks, quiet_slowHolder, hwords, hlisted,
    grantsLate hasks (hcheck _) (htrace hhooks slowHolder quiet_slowHolder),
    grantsLate hasksBody (hcheckBody _) (htraceBody hhooks slowHolder quiet_slowHolder),
    fun mode => ?_⟩
  have hasksNothing := congrArg Run.outcome (hhidden.forbidden hauthor)
  have hdenied := congrArg Run.outcome
    ((hcheckAuthor slowHolder.marked).forbidden hasksNothing mode)
  have hdecided := htraceAuthor hhooks slowHolder quiet_slowHolder mode
  rw [hasksNothing, hdenied] at hdecided
  exact ⟨hdenied, hdecided⟩

end Policy

end Clearance
