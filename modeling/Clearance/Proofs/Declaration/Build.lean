import Clearance.Proofs.Declaration.Fingerprint
import Clearance.Proofs.Policy.Reordering

/-! Declarations that say the same build the same policies.

The plan of a declaration names everything by plain texts, and the plans of two
declarations with the same content differ in the order of their credentials and fields
at most. -/
namespace Clearance.Declaration

variable {d d' : Declaration}

theorem itemsOf?_plan (d : Declaration) (hooks : Option HookTable) (settings : Option Settings) :
    Registry.itemsOf? (d.plan hooks settings).credentials =
      some (Registry.unkeyed d.toCredentials) := by
  simp [plan, Registry.itemsOf?, Registry.unkeyed, Value.entries?, Value.members?, Value.bare,
    List.map_map, Function.comp_def]

theorem texts_plan (d : Declaration) (hooks : Option HookTable) (settings : Option Settings) :
    (d.plan hooks settings).Texts := by
  rw [Policy.Plan.Texts, Policy.Plan.items, itemsOf?_plan, Option.getD_some,
    Registry.credentialsOf_unkeyed, toCredentials, List.forall_mem_map]
  intro e _
  exact Credential.texts_ofNames _ _ _ _ _ _ _

/-- The fields of a declaration are read as they stand, also when there are none. -/
theorem entries?_fieldTable (d : Declaration) (hooks : Option HookTable)
    (settings : Option Settings) : (d.plan hooks settings).fieldTable.entries? =
      some (d.fields.map fun e => (Value.text e.1, e.2.toValue)) := by
  rw [Policy.Plan.fieldTable, plan]
  cases d.fields with
  | nil => simp [Value.isTrue, Value.entries?, Value.bare]
  | cons e rest => simp [Value.isTrue, Value.entries?, Value.bare]

/-- The plans of declarations with the same content say the same in another order. -/
theorem reorders_plan (hd : d.Proper) (h : d.SameContent d') (hooks hooks' : Option HookTable)
    (settings : Option Settings) : (d.plan hooks settings).Reorders (d'.plan hooks' settings) where
  entityType := congrArg Value.text h.entityType
  softDelete := congrArg Value.bool h.softDelete
  includeDefaults := congrArg Value.bool h.includeDefaults
  strict := by rw [Policy.strictness, Policy.strictness, plan, plan, h.strict]
  credentials := by
    refine ⟨_, _, itemsOf?_plan d hooks settings, itemsOf?_plan d' hooks' settings, ?_⟩
    refine Registry.rearranged_unkeyed (h.credentials.map _) ?_
    have hnames : (d.toCredentials.map fun c => c.name.text?) =
        (d.credentials.map Prod.fst).map some := by
      rw [toCredentials, List.map_map, List.map_map]
      rfl
    rw [hnames]
    exact hd.credentials.map (Option.some_injective _)
  fields := by
    refine ⟨_, _, entries?_fieldTable d hooks settings, entries?_fieldTable d' hooks' settings,
      h.fields.map _, ?_⟩
    rw [List.map_map]
    exact hd.fields

/-- **The same content builds the same.** If one declaration builds, so does every other
with the same content, whatever the hooks, and to a policy with the same rules. -/
theorem build_of_sameContent (hd : d.Proper) (h : d.SameContent d') {hooks : Option HookTable}
    {settings : Option Settings} {p : Policy} (hok : (d.build hooks settings).outcome = .ok p)
    (hooks' : Option HookTable) :
    ∃ q, (d'.build hooks' settings).outcome = .ok q ∧ p.SameRules q :=
  Policy.build_of_reorders (reorders_plan hd h hooks hooks' settings)
    (texts_plan d hooks settings) hok

/-- A policy has the hooks that it was built with, frozen. -/
theorem hooks_of_build {hooks : Option HookTable} {settings : Option Settings} {p : Policy}
    (hok : (d.build hooks settings).outcome = .ok p) :
    p.hooks = (Policy.policyHooks (d.plan hooks settings)).freeze := by
  obtain ⟨registry, hbuilt⟩ := Policy.built_of_build hok
  exact hbuilt.hooks

end Clearance.Declaration
