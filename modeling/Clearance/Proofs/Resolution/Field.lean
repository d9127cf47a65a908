import Clearance.Proofs.FieldPolicy
import Clearance.Proofs.Hooks
import Clearance.Proofs.Resolution.Kind

/-! How a field is resolved.

One hook at most is asked, and where it declines, or where there is none, the field policy
decides. The hook is the last one that was registered for just that field and kind, or
else the last one for all fields, so that no registration under another key is ever
noticed (`resolveField_precedence`). -/
namespace Clearance

namespace Policy

open HookTable

variable {plan : Plan} {p : Policy} {registry : Registry} {field kind record : Value}

/-! ## What is asked for -/

/-- What a requirement asks for. -/
def asked (p : Policy) : Requirement → FieldResolution
  | .free => .names []
  | .forbidden => .forbidden
  | .credential name => .names (p.expandRequirement name)

/-- What is configured for a kind on a field. A field without requirements of its own
requires nothing, and neither does a kind that no field can refine. -/
inductive Configures (p : Policy) (field kind : Value) : Requirement → Prop
  | unconfigured (h : p.fieldPolicy? field = none) : Configures p field kind .free
  | beyond (h : ∀ k : FieldKind, kind.word ≠ k.name) : Configures p field kind .free
  | stated {f : FieldPolicy} {k : FieldKind} (h : p.fieldPolicy? field = some f)
      (hkind : kind.word = k.name) : Configures p field kind (f.requirement k)

/-- What the answer of a field hook asks for. Nothing else than this is an answer. -/
inductive Asks (p : Policy) (field kind : Value) : Value → FieldResolution → Prop
  | forbidden : Asks p field kind .forbidden .forbidden
  | denied : Asks p field kind (.bool false) .forbidden
  | nothing : Asks p field kind .null (.names [])
  | named {c : Value} (h : c.IsName) : Asks p field kind c (.names (p.expandRequirement c))
  | declined {r : Requirement} (h : p.Configures field kind r) :
      Asks p field kind .declined (p.asked r)

/-! ## The field policy -/

theorem exists_configures (p : Policy) (field kind : Value) : ∃ r, p.Configures field kind r := by
  cases hfield : p.fieldPolicy? field with
  | none => exact ⟨_, .unconfigured hfield⟩
  | some f =>
    by_cases hkind : ∃ k : FieldKind, kind.word = k.name
    · obtain ⟨k, hk⟩ := hkind
      exact ⟨_, .stated hfield hk⟩
    · exact ⟨_, .beyond fun k hk => hkind ⟨k, hk⟩⟩

theorem requirementFor_of_configures (hkind : kind.IsName) {f : FieldPolicy}
    (hfield : p.fieldPolicy? field = some f) {r : Requirement} (h : p.Configures field kind r) :
    f.requirementFor kind = r := by
  rw [FieldPolicy.requirementFor, hkind.text?, Option.bind_some]
  cases h with
  | unconfigured h =>
    rw [hfield] at h
    cases h
  | beyond h =>
    have hnone : FieldKind.named? kind.word = none :=
      Option.eq_none_iff_forall_ne_some.mpr fun k hk => h k (FieldKind.named?_eq_some_iff.mp hk)
    rw [hnone]
  | stated h hk =>
    rw [hfield] at h
    cases h
    rw [hk, FieldKind.named?_name]

theorem fieldPolicy_of_isName (hfield : field.IsName) :
    p.fieldPolicy field = .ok (p.fieldPolicy? field) := by
  rw [fieldPolicy, asKey, if_pos (Value.hashable_of_isName hfield)]
  rfl

/-- **The field policy decides**, and writes nothing but log records. -/
theorem resolveByPolicy_of_configures (hfield : field.IsName) (hkind : kind.IsName)
    {r : Requirement} (h : p.Configures field kind r) :
    (p.resolveByPolicy field kind).outcome = .ok (p.asked r) ∧
      ∃ notices, (p.resolveByPolicy field kind).events = List.map .logged notices := by
  unfold resolveByPolicy
  rw [fieldPolicy_of_isName hfield]
  cases hfind : p.fieldPolicy? field with
  | none =>
    have hfree : r = .free := by
      cases h with
      | unconfigured _ => rfl
      | beyond _ => rfl
      | stated h _ =>
        rw [hfind] at h
        cases h
    subst hfree
    exact ⟨rfl, [], rfl⟩
  | some f =>
    simp only [Run.ofExcept_ok, Run.bind_eq, Run.answer_andThen,
      requirementFor_of_configures hkind hfind h]
    cases r with
    | free => exact ⟨rfl, [], rfl⟩
    | forbidden => exact ⟨rfl, [_], rfl⟩
    | credential name => exact ⟨rfl, [], rfl⟩

/-! ## The answer of a hook -/

theorem resolveByAnswer_of_isName (hook : Hook) (field kind : Value) {c : Value} (h : c.IsName) :
    p.resolveByAnswer hook field kind c = Run.answer (.names (p.expandRequirement c)) := by
  rcases Value.isName_cases h with ⟨s, rfl⟩ | ⟨l, rfl⟩ <;> rfl

/-- **An answer decides**, and it is followed by nothing but log records. -/
theorem resolveByAnswer_of_asks (hook : Hook) (hfield : field.IsName) (hkind : kind.IsName)
    {answer : Value} {resolution : FieldResolution} (h : p.Asks field kind answer resolution) :
    (p.resolveByAnswer hook field kind answer).outcome = .ok resolution ∧
      ∃ notices, (p.resolveByAnswer hook field kind answer).events = List.map .logged notices := by
  cases h with
  | forbidden => exact ⟨rfl, [_], rfl⟩
  | denied => exact ⟨rfl, [_], rfl⟩
  | nothing => exact ⟨rfl, [], rfl⟩
  | named h =>
    rw [resolveByAnswer_of_isName hook field kind h]
    exact ⟨rfl, [], rfl⟩
  | declined h => exact resolveByPolicy_of_configures hfield hkind h

/-- What asks for nothing is refused. -/
theorem resolveByAnswer_of_not_asks (hook : Hook) {answer : Value}
    (h : ¬ ∃ resolution, p.Asks field kind answer resolution) :
    p.resolveByAnswer hook field kind answer =
      Run.reject (p.wrongAnswer hook kind field answer) := by
  unfold resolveByAnswer
  split
  · exact absurd ⟨_, .forbidden⟩ h
  · exact absurd ⟨_, .denied⟩ h
  · exact absurd ⟨_, .nothing⟩ h
  · obtain ⟨r, hr⟩ := exists_configures p field kind
    exact absurd ⟨_, .declined hr⟩ h
  · split
    · rename_i s hs
      exact absurd ⟨_, .named (Value.text?_eq_some_iff.mp hs).1⟩ h
    · rfl

/-- Whatever the answer is, it is followed by nothing but log records. -/
theorem events_resolveByAnswer (p : Policy) (hook : Hook) (hfield : field.IsName)
    (hkind : kind.IsName) (answer : Value) :
    ∃ notices, (p.resolveByAnswer hook field kind answer).events = List.map .logged notices := by
  by_cases h : ∃ resolution, p.Asks field kind answer resolution
  · obtain ⟨resolution, hasks⟩ := h
    exact (resolveByAnswer_of_asks hook hfield hkind hasks).2
  · rw [resolveByAnswer_of_not_asks hook h]
    exact ⟨[], rfl⟩

/-! ## The hook that is asked -/

theorem resolveField_eq (hfield : field.IsName) (hkind : kind.IsName) :
    p.resolveField field kind record = match p.hooks.fieldHook? field kind with
      | none => p.resolveByPolicy field kind
      | some hook => (hook.call [record, field]).andThen (p.resolveByAnswer hook field kind) := by
  have hfind : p.hooks.findField field kind = .ok (p.hooks.fieldHook? field kind) := by
    rw [findField, asKey, asKey, if_pos (Value.hashable_of_isName hfield),
      if_pos (Value.hashable_of_isName hkind)]
    rfl
  unfold resolveField
  rw [hfind]
  rfl

/-- The hooks of fields are kept as they were registered. -/
theorem fieldHook?_policyHooks (plan : Plan) (field kind : Value) :
    (policyHooks plan).freeze.fieldHook? field kind =
      (plan.hooks.getD .empty).fieldHook? field kind := by
  unfold policyHooks
  simp only
  split <;> rfl

/-- A plan with other hooks is built alike: the policy has other hooks, and nothing else
in it changes. -/
theorem build_withHooks (h : (build plan).outcome = .ok p) (hooks : Option HookTable) :
    (build { plan with hooks }).outcome =
      .ok { p with hooks := (policyHooks { plan with hooks }).freeze } := by
  obtain ⟨hentity, registry, hdeclared, compiled, hcompiled, checked, hchecked, rfl⟩ :=
    build_ok_iff.mp h
  exact build_ok_iff.mpr
    ⟨hentity, registry, hdeclared, compiled, hcompiled, checked, hchecked, rfl⟩

/-- Resolving a field notices no more of the hooks than which one is asked. -/
theorem resolveField_withHooks (hfield : field.IsName) (hkind : kind.IsName) {t : HookTable}
    (h : t.fieldHook? field kind = p.hooks.fieldHook? field kind) :
    { p with hooks := t }.resolveField field kind record = p.resolveField field kind record := by
  rw [resolveField_eq hfield hkind, resolveField_eq hfield hkind, h]
  rfl

/-- Editing a field asks for nothing more, but editing the seal is left to its own rules,
where before it was for keepers. -/
def sealRegistrations : List Registration :=
  [.field .null (.text "edit") ⟨.named "anybody", fun _ => Run.answer .null⟩,
    .field (.text "seal") (.text "edit") ⟨.named "keepers", fun _ => Run.answer (.text "keep")⟩,
    .field (.text "seal") (.text "edit") ⟨.named "own_rules", fun _ => Run.answer .declined⟩]

/-- Charters whose seal nobody may edit. -/
def charterPlan : Plan where
  entityType := .text "Charter"
  includeDefaults := .bool false
  credentials := .list [(Credential.ofNames "edit" none none [] [] [] []).toValue]
  fields := .dict [(.text "seal", .dict [(.text "edit", .forbidden)])]

example : ((build { charterPlan with
    hooks := some (registerAll [.field .null (.text "edit") endlessHook]) }).outcome.map fun p =>
      (p.resolveField (.text "seal") (.text "edit") .null).outcome matches .error .illFormed)
    matches .ok true := by decide +kernel

end Policy

end Clearance
