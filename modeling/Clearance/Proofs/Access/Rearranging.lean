import Clearance.Proofs.Policy.Reordering
import Clearance.Resolution

/-! Access does not depend on the order of declarations.

A plan may list its credentials in any order that keeps those of one name in theirs, and
its fields in any order at all. It is built in all of them or in none, the policies have
the same rules, and what they resolve access to is the same, name by name
(`build_of_rearranges`). -/
namespace Clearance

namespace Policy

/-! ## Policies with the same rules and hooks resolve the same -/

namespace SameRules

variable {p q : Policy}

theorem declares (h : p.SameRules q) (name : Value) : p.declares name = q.declares name := by
  unfold Policy.declares
  rw [h.find?]

theorem format (h : p.SameRules q) : p.format = q.format := by
  funext name
  rw [Policy.format, Policy.format, h.entityType, h.declares]

theorem expandRequirement (h : p.SameRules q) (name : Value) :
    p.expandRequirement name = q.expandRequirement name := by
  simp only [Policy.expandRequirement, Policy.formatAll, h.find?, h.format]

theorem expandValue (h : p.SameRules q) (name : Value) :
    p.expandValue name = q.expandValue name := by
  simp only [Policy.expandValue, h.expandRequirement]

variable (h : p.SameRules q) (hhooks : p.hooks = q.hooks)
include h

theorem wrongAnswer : p.wrongAnswer = q.wrongAnswer := by
  funext hook kind field answer
  rw [Policy.wrongAnswer, Policy.wrongAnswer, h.entityType]

include hhooks

theorem requestedCredential (kind record : Value) (strict : Bool) :
    p.requestedCredential kind record strict = q.requestedCredential kind record strict := by
  simp only [Policy.requestedCredential, Policy.askHook, hhooks, h.wrongAnswer, h.entityType,
    Policy.hasCredential, h.declares]

/-- Access to the entity type is resolved to the same names in the same order. -/
theorem resolveAccess (kind record strict : Value) :
    p.resolveAccess kind record strict = q.resolveAccess kind record strict := by
  have hstrict : p.isStrict strict = q.isStrict strict := by
    unfold isStrict
    rw [h.strict]
  have htext : p.resolvedText = q.resolvedText := by
    funext kind credential names
    rw [Policy.resolvedText, Policy.resolvedText, h.entityType]
  simp only [Policy.resolveAccess, hstrict, h.requestedCredential hhooks, h.expandValue, htext]

/-- Access to a field is resolved to the same names in the same order. -/
theorem resolveField (field kind record : Value) :
    p.resolveField field kind record = q.resolveField field kind record := by
  have htext : p.forbiddenText = q.forbiddenText := by
    funext field kind
    rw [Policy.forbiddenText, Policy.forbiddenText, h.entityType]
  have hpolicy : p.resolveByPolicy = q.resolveByPolicy := by
    funext field kind
    simp only [Policy.resolveByPolicy, Policy.fieldPolicy, h.fieldPolicy?, htext,
      h.expandRequirement]
  have hanswer : p.resolveByAnswer = q.resolveByAnswer := by
    funext hook field kind answer
    simp only [Policy.resolveByAnswer, htext, hpolicy, h.expandRequirement, h.wrongAnswer]
  simp only [Policy.resolveField, hhooks, hpolicy, hanswer]

end SameRules

/-! ## Plans in another order -/

/-- A plan and another that differs from it in order alone: the credentials of each name
keep theirs, and the fields, of which no two have one text for a key, may stand anywhere. -/
structure Plan.Rearranges (plan plan' : Plan) : Prop where
  entityType : plan.entityType = plan'.entityType
  softDelete : plan.softDelete = plan'.softDelete
  includeDefaults : plan.includeDefaults = plan'.includeDefaults
  strict : plan.strict = plan'.strict
  hooks : plan.hooks = plan'.hooks
  settings : plan.settings = plan'.settings
  credentials : ∃ items items', Registry.itemsOf? plan.credentials = some items ∧
    Registry.itemsOf? plan'.credentials = some items' ∧ Registry.Rearranged items items'
  fields : ∃ entries entries', plan.fieldTable.entries? = some entries ∧
    plan'.fieldTable.entries? = some entries' ∧ entries.Perm entries' ∧
    (entries.filterMap fun e => e.1.text?).Nodup

namespace Plan.Rearranges

variable {plan plan' : Plan}

theorem symm (h : plan.Rearranges plan') : plan'.Rearranges plan where
  entityType := h.entityType.symm
  softDelete := h.softDelete.symm
  includeDefaults := h.includeDefaults.symm
  strict := h.strict.symm
  hooks := h.hooks.symm
  settings := h.settings.symm
  credentials := by
    obtain ⟨items, items', hitems, hitems', hrearranged⟩ := h.credentials
    exact ⟨items', items, hitems', hitems, hrearranged.symm⟩
  fields := by
    obtain ⟨entries, entries', hentries, hentries', hperm, hnodup⟩ := h.fields
    exact ⟨entries', entries, hentries', hentries, hperm.symm,
      (hperm.filterMap _).nodup_iff.mp hnodup⟩

theorem texts (h : plan.Rearranges plan') (htexts : plan.Texts) : plan'.Texts := by
  obtain ⟨items, items', hitems, hitems', hrearranged⟩ := h.credentials
  rw [Plan.Texts, Plan.items, hitems, Option.getD_some] at htexts
  rw [Plan.Texts, Plan.items, hitems', Option.getD_some]
  intro c hc
  have hmem : c ∈ Registry.credentialsOf items :=
    (hrearranged.perm.filterMap _).mem_iff.mpr hc
  exact htexts c hmem

theorem policyHooks (h : plan.Rearranges plan') : policyHooks plan = policyHooks plan' := by
  simp only [Policy.policyHooks, h.hooks, h.softDelete, h.settings]

/-- All keys of fields that are accepted are names, so that none stands there twice. -/
theorem reorders (h : plan.Rearranges plan') {p : Policy} (hok : (build plan).outcome = .ok p) :
    plan.Reorders plan' where
  entityType := h.entityType
  softDelete := h.softDelete
  includeDefaults := h.includeDefaults
  strict := by rw [strictness, strictness, h.strict, h.settings]
  credentials := h.credentials
  fields := by
    obtain ⟨entries, entries', hentries, hentries', hperm, hnodup⟩ := h.fields
    refine ⟨entries, entries', hentries, hentries', hperm, ?_⟩
    obtain ⟨registry, hbuilt⟩ := built_of_build hok
    obtain ⟨hfields, hnames⟩ := FieldPolicy.fields_of_readAll hentries hbuilt.checked
    have hkeys : ∀ e ∈ entries, e.1.text? = some e.1.word := by
      intro e he
      have hmem : e.1 ∈ p.fields.map FieldPolicy.field := hfields ▸ List.mem_map_of_mem he
      obtain ⟨f, hf, hfield⟩ := List.mem_map.mp hmem
      exact (hfield ▸ hnames f hf : e.1.IsName).text?
    rwa [List.filterMap_congr hkeys, List.filterMap_eq_map'] at hnodup

theorem build (h : plan.Rearranges plan') (htexts : plan.Texts) {p : Policy}
    (hok : (Policy.build plan).outcome = .ok p) :
    ∃ p', (Policy.build plan').outcome = .ok p' ∧ p.SameRules p' :=
  build_of_reorders (h.reorders hok) htexts hok

end Plan.Rearranges

/-- **The order of declarations does not matter.** Of two plans that differ in order alone,
with texts for names, both are built or neither is; and the policies have the same rules
and resolve access to the entity type and to its fields alike. -/
theorem build_of_rearranges {plan plan' : Plan} (h : plan.Rearranges plan')
    (htexts : plan.Texts) :
    ((∃ p, (build plan).outcome = .ok p) ↔ ∃ p', (build plan').outcome = .ok p') ∧
    ∀ p p', (build plan).outcome = .ok p → (build plan').outcome = .ok p' →
      p.SameRules p' ∧
      (∀ kind record strict, p.resolveAccess kind record strict =
        p'.resolveAccess kind record strict) ∧
      ∀ field kind record, p.resolveField field kind record =
        p'.resolveField field kind record := by
  constructor
  · constructor
    · rintro ⟨p, hok⟩
      obtain ⟨p', hok', -⟩ := h.build htexts hok
      exact ⟨p', hok'⟩
    · rintro ⟨p', hok'⟩
      obtain ⟨p, hok, -⟩ := h.symm.build (h.texts htexts) hok'
      exact ⟨p, hok⟩
  · intro p p' hok hok'
    obtain ⟨q, hq, hrules⟩ := h.build htexts hok
    obtain rfl : q = p' := Except.ok.inj (hq.symm.trans hok')
    obtain ⟨registry, hbuilt⟩ := built_of_build hok
    obtain ⟨registry', hbuilt'⟩ := built_of_build hok'
    have hhooks : p.hooks = q.hooks := by
      rw [hbuilt.hooks, hbuilt'.hooks, h.policyHooks]
    exact ⟨hrules, hrules.resolveAccess hhooks, hrules.resolveField hhooks⟩

/-- Approving memos, which is declared in two parts, and auditing them. -/
def approving : Credential := Credential.ofNames "approve" none none ["audit"] [] [] []

def releasing : Credential :=
  Credential.ofNames "approve" (some (.given "Release")) none [] [] [] []

def auditing : Credential := Credential.ofNames "audit" none none [] [] [] []

def memoPlan (credentials : List Credential) (fields : List (Value × Value)) : Plan where
  entityType := .text "Memo"
  includeDefaults := .bool false
  credentials := .list (credentials.map Credential.toValue)
  fields := .dict fields

theorem build_memoPlan :
    let body := (Value.text "body", Value.dict [(.text "edit", .text "approve")])
    let margin := (Value.text "margin", Value.dict [(.text "view", .bool false)])
    let plan := memoPlan [approving, auditing, releasing] [body, margin]
    let plan' := memoPlan [auditing, approving, releasing] [margin, body]
    plan.Rearranges plan' ∧ plan.Texts ∧ ∃ p p', (build plan).outcome = .ok p ∧
      (build plan').outcome = .ok p' ∧ p.SameRules p' := by
  intro body margin plan plan'
  have hofName : ∀ name, Credential.ofName name [approving, auditing, releasing] =
      Credential.ofName name [auditing, approving, releasing] := by
    intro name
    -- of the two that change places, only one can be the audit
    by_cases hname : auditing.name.text? = some name
    · cases hname
      rfl
    · simp only [Credential.ofName, List.filter_cons, hname, decide_false, Bool.false_eq_true,
        if_false]
  have hrearranges : plan.Rearranges plan' :=
    ⟨rfl, rfl, rfl, rfl, rfl, rfl, ⟨_, _, rfl, rfl, .swap _ _ _, hofName⟩,
      ⟨_, _, rfl, rfl, .swap _ _ _, by decide⟩⟩
  have htexts : plan.Texts := by
    show ∀ c ∈ [approving, auditing, releasing], c.Texts
    simp [approving, auditing, releasing, Credential.texts_ofNames]
  have hbuilt : ((build plan).outcome.toOption.any fun _ => true) = true := by decide +kernel
  obtain ⟨p, hok, -⟩ := exists_ok_of_any hbuilt
  obtain ⟨hiff, hsame⟩ := build_of_rearranges hrearranges htexts
  obtain ⟨p', hok'⟩ := hiff.mp ⟨p, hok⟩
  exact ⟨hrearranges, htexts, p, p', hok, hok', (hsame p p' hok hok').1⟩

end Policy

end Clearance
