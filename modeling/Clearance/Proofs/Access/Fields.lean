import Clearance.Proofs.Access.Decisions

/-! How a field right refines the right to the entity type.

What a field asks for is resolved first. A field that is forbidden is denied there and
then; else the names of the field and those of the kind are asked for in one request,
and that request is the conjunction of the two checks (`checkFieldAccess_refines`). -/
namespace Clearance

namespace Policy

variable {p : Policy}

/-! ## What a field asks for -/

theorem isName_of_resolveByPolicy (hp : p.ListsNames) (hfields : ∀ f ∈ p.fields, f.RequiresNames)
    {field kind : Value} {names : List Value}
    (h : (p.resolveByPolicy field kind).outcome = .ok (.names names)) :
    ∀ v ∈ names, v.IsName := by
  unfold resolveByPolicy at h
  obtain ⟨policy, hpolicy, h⟩ := Run.andThen_outcome_ok.mp h
  cases policy with
  | none =>
    cases h
    simp
  | some policy =>
    have hmem : policy ∈ p.fields := by
      obtain ⟨_, -, hfind⟩ := bind_eq_ok_iff.mp hpolicy
      exact List.mem_of_find?_eq_some (Except.ok.inj hfind)
    simp only at h
    split at h
    · cases h
      simp
    · obtain ⟨_, -, h⟩ := Run.andThen_outcome_ok.mp h
      cases h
    · rename_i name hname
      cases h
      refine isName_of_mem_expandRequirement hp ?_
      unfold FieldPolicy.requirementFor at hname
      split at hname
      · exact hfields policy hmem _ _ hname
      · cases hname

/-- Whatever a field asks for is a name, whether a hook or the policy says so. -/
theorem isName_of_resolveField (hp : p.ListsNames) (hfields : ∀ f ∈ p.fields, f.RequiresNames)
    {field kind record : Value} {names : List Value}
    (h : (p.resolveField field kind record).outcome = .ok (.names names)) :
    ∀ v ∈ names, v.IsName := by
  unfold resolveField at h
  obtain ⟨hook, -, h⟩ := Run.andThen_outcome_ok.mp h
  cases hook with
  | none => exact isName_of_resolveByPolicy hp hfields h
  | some hook =>
    obtain ⟨answer, -, h⟩ := Run.andThen_outcome_ok.mp h
    unfold resolveByAnswer at h
    split at h
    · obtain ⟨_, -, h⟩ := Run.andThen_outcome_ok.mp h
      cases h
    · obtain ⟨_, -, h⟩ := Run.andThen_outcome_ok.mp h
      cases h
    · cases h
      simp
    · exact isName_of_resolveByPolicy hp hfields h
    · split at h
      · rename_i s hs
        cases h
        exact isName_of_mem_expandRequirement hp (Value.text?_eq_some_iff.mp hs).1
      · exact absurd h refuse_ne_ok

/-- A policy with other hooks for whole entity types. -/
def withAccessHooks (p : Policy) (access : List (Value × Hook)) : Policy :=
  { p with hooks := { p.hooks with access } }

/-- Resolving a field never looks at the hooks for whole entity types. -/
theorem resolveField_withAccessHooks (access : List (Value × Hook)) (field kind record : Value) :
    (p.withAccessHooks access).resolveField field kind record = p.resolveField field kind record :=
  rfl

/-! ## The three outcomes of a field -/

variable {field kind record : Value}

theorem checkFieldAccess_of_error {e : Failure}
    (h : (p.resolveField field kind record).outcome = .error e) (mode : Mode) (holder : Holder)
    (strict : Value) :
    (checkFieldAccess mode (.holder holder) p field kind record strict).outcome = .error e := by
  have hinquiry := (inquires p field kind record strict).unresolved h
  exact congrArg Run.outcome (perform_of_error (congrArg Run.outcome hinquiry) mode holder)

/-- A forbidden field ends the check: after what resolving the field does, the denial
is logged, and nothing else happens. -/
theorem checkFieldAccess_of_forbidden
    (h : (p.resolveField field kind record).outcome = .ok .forbidden) (mode : Mode)
    (holder : Holder) (strict : Value) :
    checkFieldAccess mode (.holder holder) p field kind record strict =
      ⟨(p.resolveField field kind record).events ++ [p.decision kind field false], .ok false⟩ := by
  have hinquiry := (inquires p field kind record strict).forbidden h
  have hperform := perform_of_forbidden (congrArg Run.outcome hinquiry) mode holder
  rw [hinquiry] at hperform
  exact hperform

/-- With names of its own, or with none, a field check is the check of the entity type
and one of the names of the field. -/
theorem checkFieldAccess_of_names (hp : p.ListsNames) {names : List Value}
    (hnames : ∀ v ∈ names, v.IsName)
    (h : (p.resolveField field kind record).outcome = .ok (.names names)) (mode : Mode)
    (principal : StaticPrincipal) (strict : Value) :
    (checkFieldAccess mode (.holder principal.toHolder) p field kind record strict).outcome =
      (checkAccess mode (.holder principal.toHolder) p kind record strict).outcome.map
        fun granted => granted && (names.isEmpty || principal.holdsAny names) := by
  rw [checkAccess_outcome hp]
  have hinquiry := (inquires p field kind record strict).names h
  cases hres : (p.resolveAccess kind record strict).outcome with
  | error e =>
    have hfailed : (p.inquiry .fieldAccess field kind record strict).outcome = .error e := by
      rw [hinquiry, hres]
      rfl
    exact congrArg Run.outcome (perform_of_error hfailed mode principal.toHolder)
  | ok entityNames =>
    have hfound : (p.inquiry .fieldAccess field kind record strict).outcome =
        .ok (some (groups entityNames names)) := by
      rw [hinquiry, hres]
      rfl
    -- an empty group of the field is left out, for nobody would satisfy it
    have hgroups : ∀ group ∈ entityNames :: (if names.isEmpty then [] else [names]),
        ∀ v ∈ group, v.IsName := by
      refine List.forall_mem_cons.mpr ⟨isName_of_resolveAccess hp hres, ?_⟩
      split
      · simp
      · simpa using hnames
    have hasked : (principal.toHolder.ask (groups entityNames names) true record).outcome =
        .ok (.now (.bool (principal.holdsAny entityNames &&
          (names.isEmpty || principal.holdsAny names)))) := by
      simp only [StaticPrincipal.toHolder, groups, principal.hasCredential_groups hgroups,
        Run.ofExcept_ok, Run.bind_eq, Run.answer_andThen, Run.pure_eq, Run.outcome_answer]
      cases names.isEmpty <;> simp
    have hchecked := congrArg Run.outcome (perform_of_request hfound mode principal.toHolder)
    rwa [judged_of_now hasked] at hchecked

/-- Whoever is granted a field is granted the entity type. -/
theorem checkAccess_of_checkFieldAccess (hp : p.ListsNames)
    (hfields : ∀ f ∈ p.fields, f.RequiresNames) {mode : Mode} {principal : StaticPrincipal}
    {strict : Value} (hgranted : (checkFieldAccess mode (.holder principal.toHolder) p field kind
      record strict).outcome = .ok true) :
    (checkAccess mode (.holder principal.toHolder) p kind record strict).outcome = .ok true := by
  cases hres : (p.resolveField field kind record).outcome with
  | error e =>
    rw [checkFieldAccess_of_error hres] at hgranted
    cases hgranted
  | ok resolution =>
    cases resolution with
    | forbidden =>
      rw [checkFieldAccess_of_forbidden hres] at hgranted
      cases hgranted
    | names names =>
      rw [checkFieldAccess_of_names hp (isName_of_resolveField hp hfields hres) hres] at hgranted
      cases haccess : (checkAccess mode (.holder principal.toHolder) p kind record
          strict).outcome with
      | error e =>
        rw [haccess] at hgranted
        cases hgranted
      | ok granted =>
        rw [haccess] at hgranted
        have hboth := (Bool.and_eq_true _ _).mp (Except.ok.inj hgranted)
        rw [hboth.1]

/-- **A field right refines the entity right and never bypasses it.** -/
theorem checkFieldAccess_refines {plan : Plan} (hbuild : (build plan).outcome = .ok p)
    (mode : Mode) (principal : StaticPrincipal) (field kind record strict : Value) :
    (match (p.resolveField field kind record).outcome with
      | .error e =>
        (checkFieldAccess mode (.holder principal.toHolder) p field kind record strict).outcome =
          .error e
      | .ok .forbidden =>
        ∀ (holder : Holder) (access : List (Value × Hook)) (strict' : Value),
          checkFieldAccess mode (.holder holder) (p.withAccessHooks access) field kind record
              strict' =
            ⟨(p.resolveField field kind record).events ++ [p.decision kind field false], .ok false⟩
      | .ok (.names names) =>
        (checkFieldAccess mode (.holder principal.toHolder) p field kind record strict).outcome =
          (checkAccess mode (.holder principal.toHolder) p kind record strict).outcome.map
            fun granted => granted && (names.isEmpty || principal.holdsAny names)) ∧
    ((checkFieldAccess mode (.holder principal.toHolder) p field kind record strict).outcome =
        .ok true →
      (checkAccess mode (.holder principal.toHolder) p kind record strict).outcome = .ok true) ∧
    (principal.held = [] →
      (checkAccess mode (.holder principal.toHolder) p kind record strict).outcome ≠ .ok true ∧
      (checkFieldAccess mode (.holder principal.toHolder) p field kind record strict).outcome ≠
        .ok true) := by
  obtain ⟨registry, h⟩ := built_of_build hbuild
  refine ⟨?_, checkAccess_of_checkFieldAccess h.listsNames h.requiresNames, ?_⟩
  · cases hres : (p.resolveField field kind record).outcome with
    | error e => exact checkFieldAccess_of_error hres mode principal.toHolder strict
    | ok resolution =>
      cases resolution with
      | forbidden =>
        intro holder access strict'
        rw [← resolveField_withAccessHooks access] at hres ⊢
        exact checkFieldAccess_of_forbidden hres mode holder strict'
      | names names =>
        exact checkFieldAccess_of_names h.listsNames
          (isName_of_resolveField h.listsNames h.requiresNames hres) hres mode principal strict
  · intro hheld
    have haccess : (checkAccess mode (.holder principal.toHolder) p kind record strict).outcome ≠
        .ok true := by
      rw [checkAccess_outcome h.listsNames]
      cases (p.resolveAccess kind record strict).outcome with
      | error e => simp [Except.map]
      | ok names => simp [Except.map, StaticPrincipal.holdsAny_of_held_nil hheld]
    exact ⟨haccess, fun hfield =>
      haccess (checkAccess_of_checkFieldAccess h.listsNames h.requiresNames hfield)⟩

/-- Letters whose seal nobody may edit. -/
def letterPlan : Plan where
  entityType := .text "Letter"
  includeDefaults := .bool false
  credentials := .list [(Credential.ofNames "edit" none none [] [] [] []).toValue]
  fields := .dict [(.text "seal", .dict [(.text "edit", .forbidden)])]

theorem checkFieldAccess_letter_seal : ∃ p, (build letterPlan).outcome = .ok p ∧
    ∀ holder strict, (checkFieldAccess .direct (.holder holder) p (.text "seal") (.text "edit")
      .null strict).outcome = .ok false := by
  have hbuilt : ((build letterPlan).outcome.toOption.any fun p =>
      (p.resolveField (.text "seal") (.text "edit") .null).outcome.toOption.any
        (· matches .forbidden)) = true := by decide +kernel
  cases hp : (build letterPlan).outcome with
  | error e =>
    rw [hp] at hbuilt
    cases hbuilt
  | ok p =>
    rw [hp] at hbuilt
    refine ⟨p, rfl, ?_⟩
    have hcases := (checkFieldAccess_refines hp .direct ⟨.null, .null, []⟩ (.text "seal")
      (.text "edit") .null .null).1
    change ((p.resolveField (.text "seal") (.text "edit") .null).outcome.toOption.any
      (· matches .forbidden)) = true at hbuilt
    split at hcases
    · rename_i herror
      rw [herror] at hbuilt
      cases hbuilt
    · intro holder strict
      exact congrArg Run.outcome (hcases holder p.hooks.access strict)
    · rename_i hnames
      rw [hnames] at hbuilt
      cases hbuilt

end Policy

end Clearance
