import Clearance.Proofs.Registry.Holding
import Clearance.Proofs.Compiled

/-! What a built policy is made of.

Building runs through a registry, the compiler and the field policies; `Built` says
what each of them leaves in the policy. From it follows what callers rely on: which
names a policy declares, that its relations are the paths of the merged declarations,
and that every requirement of a field is a name. -/
namespace Clearance

namespace FieldPolicy

/-- Every credential that a field requires is a name. -/
def RequiresNames (f : FieldPolicy) : Prop :=
  ∀ kind name, f.requirement kind = .credential name → name.IsName

/-- A credential that is read as a requirement is a name that is known. -/
theorem credential_of_readRequirement {owner : Value} {known : Known} {field v name : Value}
    {kind : FieldKind} (h : readRequirement owner known field kind v = .ok (.credential name)) :
    name.IsName ∧ known name = .ok true := by
  unfold readRequirement at h
  split at h
  · cases h
  · cases h
  · cases h
  · split at h
    · exact absurd h refuse_ne_ok
    · rename_i s hs
      obtain ⟨b, hb, h⟩ := bind_eq_ok_iff.mp h
      cases b with
      | false => exact absurd h refuse_ne_ok
      | true =>
        cases h
        exact ⟨(Value.text?_eq_some_iff.mp hs).1, hb⟩

theorem credential_of_read {owner : Value} {known : Known} {field spec : Value} {f : FieldPolicy}
    (h : read owner known field spec = .ok f) {kind : FieldKind} {name : Value}
    (hname : f.requirement kind = .credential name) : name.IsName ∧ known name = .ok true := by
  unfold read at h
  split at h
  · exact absurd h refuse_ne_ok
  · split at h
    · exact absurd h refuse_ne_ok
    · obtain ⟨d, -, h⟩ := bind_eq_ok_iff.mp h
      obtain ⟨view, hview, h⟩ := bind_eq_ok_iff.mp h
      obtain ⟨create, hcreate, h⟩ := bind_eq_ok_iff.mp h
      obtain ⟨edit, hedit, h⟩ := bind_eq_ok_iff.mp h
      cases h
      cases kind with
      | view => exact credential_of_readRequirement (hview.trans (congrArg _ hname))
      | create => exact credential_of_readRequirement (hcreate.trans (congrArg _ hname))
      | edit => exact credential_of_readRequirement (hedit.trans (congrArg _ hname))

theorem credential_of_readAll {owner : Value} {known : Known} {fields : Value}
    {checked : List FieldPolicy} (h : readAll owner known fields = .ok checked)
    {f : FieldPolicy} (hf : f ∈ checked) {kind : FieldKind} {name : Value}
    (hname : f.requirement kind = .credential name) : name.IsName ∧ known name = .ok true := by
  unfold readAll at h
  split at h
  · rename_i entries hentries
    rw [mapM_eq_ok_iff] at h
    obtain ⟨e, -, hread⟩ := exists_of_mem_forall₂ (List.Forall₂.flip h) hf
    exact credential_of_read hread hname
  · cases h

end FieldPolicy

namespace Policy

/-! ## What a plan declares -/

namespace Plan

/-- The items of the declared collection. -/
def items (plan : Plan) : List Registry.Item :=
  (Registry.itemsOf? plan.credentials).getD []

/-- All credentials that are merged into the policy, the built-in ones in front. -/
def merged (plan : Plan) : List Credential :=
  Registry.builtIn plan.includeDefaults.isTrue plan.softDelete.isTrue ++
    Registry.credentialsOf plan.items

/-- What the merged declarations say. -/
def Lists (plan : Plan) : Listing String :=
  fun r a b => ∃ c ∈ plan.merged, c.name.text? = some a ∧ c.Lists r b

/-- The declared collection of a plan names credentials by plain texts alone. -/
def Texts (plan : Plan) : Prop :=
  ∀ c ∈ Registry.credentialsOf plan.items, c.Texts

theorem Texts.merged {plan : Plan} (h : plan.Texts) : ∀ c ∈ plan.merged, c.Texts :=
  List.forall_mem_append.mpr ⟨Registry.texts_builtIn _ _, h⟩

/-- The field requirements that are read; without any there are none. -/
def fieldTable (plan : Plan) : Value :=
  if plan.fields.isTrue then plan.fields else .dict []

end Plan

/-- How the parts of a policy come from its plan. -/
structure Built (plan : Plan) (p : Policy) (registry : Registry) : Prop where
  entityType : p.entityType = plan.entityType
  hooks : p.hooks = (policyHooks plan).freeze
  softDelete : p.softDelete = plan.softDelete
  strict : p.strict = strictness plan
  holds : registry.Holds plan.merged
  compiled : (registry.declared.compile plan.entityType).outcome = .ok p.credentials
  checked : FieldPolicy.readAll plan.entityType
    (fun name => .ok (p.credentials.any (·.name == name))) plan.fieldTable = .ok p.fields

/-- Declaring a collection answers with what its items leave, if they are all accepted. -/
theorem declared_ok_iff {start registry : Registry} {credentials : Value} :
    (declared start credentials).outcome = .ok registry ↔
      ∃ items, Registry.itemsOf? credentials = some items ∧
        (start.addAll items).2.outcome = .ok () ∧ (start.addAll items).1 = registry := by
  unfold declared Registry.update
  cases Registry.itemsOf? credentials with
  | none =>
    refine iff_of_false (fun h => ?_) (by simp)
    obtain ⟨_, hok, -⟩ := Run.andThen_outcome_ok.mp h
    cases hok
  | some items =>
    simp only [Run.andThen_outcome_ok, Option.some.injEq, exists_eq_left']
    constructor
    · rintro ⟨⟨⟩, hrun, hfinal⟩
      exact ⟨hrun, Except.ok.inj hfinal⟩
    · rintro ⟨hrun, rfl⟩
      exact ⟨(), hrun, rfl⟩

/-- **When building succeeds**, and what it answers. -/
theorem build_ok_iff {plan : Plan} {p : Policy} :
    (build plan).outcome = .ok p ↔ checkEntityType plan.entityType = .ok () ∧
      ∃ registry, (declared (startRegistry plan.entityType plan.includeDefaults.isTrue
          plan.softDelete.isTrue) plan.credentials).outcome = .ok registry ∧
        ∃ compiled, (registry.declared.compile plan.entityType).outcome = .ok compiled ∧
        ∃ checked, FieldPolicy.readAll plan.entityType
            (fun name => .ok (compiled.any (·.name == name))) plan.fieldTable = .ok checked ∧
          p = ⟨plan.entityType, compiled, checked, (policyHooks plan).freeze, plan.softDelete,
            strictness plan⟩ := by
  constructor
  · intro h
    unfold build at h
    obtain ⟨_, hentity, h⟩ := Run.andThen_outcome_ok.mp h
    obtain ⟨registry, hdeclared, h⟩ := Run.andThen_outcome_ok.mp h
    obtain ⟨compiled, hcompiled, h⟩ := Run.andThen_outcome_ok.mp h
    obtain ⟨checked, hchecked, h⟩ := Run.andThen_outcome_ok.mp h
    obtain ⟨_, -, h⟩ := Run.andThen_outcome_ok.mp h
    cases h
    exact ⟨hentity, registry, hdeclared, compiled, hcompiled, checked, hchecked, rfl⟩
  · rintro ⟨hentity, registry, hdeclared, compiled, hcompiled, checked, hchecked, rfl⟩
    unfold build
    refine Run.andThen_outcome_ok.mpr ⟨(), hentity, ?_⟩
    refine Run.andThen_outcome_ok.mpr ⟨registry, hdeclared, ?_⟩
    refine Run.andThen_outcome_ok.mpr ⟨compiled, hcompiled, ?_⟩
    exact Run.andThen_outcome_ok.mpr ⟨checked, hchecked, rfl⟩

/-- **Inversion of building.** -/
theorem built_of_build {plan : Plan} {p : Policy} (h : (build plan).outcome = .ok p) :
    ∃ registry, Built plan p registry := by
  obtain ⟨-, registry, hdeclared, compiled, hcompiled, checked, hchecked, rfl⟩ :=
    build_ok_iff.mp h
  obtain ⟨items, hitems, hitemsOk, rfl⟩ := declared_ok_iff.mp hdeclared
  refine ⟨_, rfl, rfl, rfl, rfl, ?_, hcompiled, hchecked⟩
  have hholds := (Registry.holds_startRegistry plan.entityType plan.includeDefaults.isTrue
    plan.softDelete.isTrue).addAll items hitemsOk
  rw [Plan.merged, Plan.items, hitems]
  exact hholds

namespace Built

variable {plan : Plan} {p : Policy} {registry : Registry}

theorem wellFormed (h : Built plan p registry) : registry.declared.WellFormed :=
  h.holds.wellFormed_declared

theorem closes (h : Built plan p registry) : Declared.Closes registry.declared p.credentials :=
  (Declared.closes_of_compile h.wellFormed h.compiled).2

theorem isName (h : Built plan p registry) {c : Capability} (hc : c ∈ p.credentials) :
    c.name.IsName :=
  h.closes.isName h.wellFormed hc

/-- No two compiled credentials have the same name. -/
theorem nodup_words (h : Built plan p registry) :
    (p.credentials.map fun c => c.name.word).Nodup :=
  h.closes.map_word ▸ h.wellFormed.distinct

/-- The relations of a compiled credential are the paths of the merged declarations. -/
theorem links_iff_path (h : Built plan p registry) {c : Capability} (hc : c ∈ p.credentials)
    {r : Relation} {s : String} :
    s ∈ (c.links.get r).map Value.word ↔ plan.Lists.Path r c.name.word s := by
  rw [h.closes.lists c hc]
  exact Listing.path_congr fun _ _ _ => h.holds.lists_declared

theorem requiresNames (h : Built plan p registry) : ∀ f ∈ p.fields, f.RequiresNames :=
  fun _ hf _ _ hname => (FieldPolicy.credential_of_readAll h.checked hf hname).1

/-- What a field requires is declared. -/
theorem declares_requirement (h : Built plan p registry) {f : FieldPolicy} (hf : f ∈ p.fields)
    {kind : FieldKind} {name : Value} (hname : f.requirement kind = .credential name) :
    p.declares name = true := by
  have hknown := (FieldPolicy.credential_of_readAll h.checked hf hname).2
  rw [declares, find?, List.find?_isSome]
  exact List.any_eq_true.mp (Except.ok.inj hknown)

/-- The names of a policy are those of the merged declarations. -/
theorem mem_map_word_iff (h : Built plan p registry) {s : String} :
    (∃ c ∈ p.credentials, c.name.word = s) ↔ ∃ c ∈ plan.merged, c.name.text? = some s := by
  rw [← h.holds.declared, ← h.holds.word_declared, ← h.closes.map_word, List.mem_map]

theorem within (h : Built plan p registry) {S : Value → Prop} (hnames : ∀ v, S v → v.IsName)
    (hall : ∀ c ∈ plan.merged, S c.name ∧ c.Within S) :
    ∀ c ∈ p.credentials, S c.name ∧ ∀ r, ∀ v ∈ c.links.get r, S v :=
  Declared.within_compile hnames (h.holds.within_declared hall) h.compiled

/-- Every end of a path is declared. -/
theorem declared_of_path (h : Built plan p registry) {r : Relation} {a b : String}
    (hp : plan.Lists.Path r a b) : ∃ c ∈ p.credentials, c.name.word = b := by
  have hknown := (Declared.closes_of_compile h.wellFormed h.compiled).1
  have hp' : registry.declared.Lists.Path r a b :=
    (Listing.path_congr fun _ _ _ => h.holds.lists_declared).mpr hp
  have hkey := Declared.Closes.known_of_path hknown hp'
  rwa [← h.closes.map_word, List.mem_map] at hkey

end Built

/-! ## Looking up names -/

section Lookup

variable {p : Policy}

theorem find?_eq_some {name : Value} (hname : name.IsName) {c : Capability}
    (h : p.find? name = some c) : c ∈ p.credentials ∧ c.name.text? = some name.word := by
  refine ⟨List.mem_of_find?_eq_some h, ?_⟩
  have hsame := List.find?_some h
  rwa [Value.beq_eq_same, Value.same_iff_of_isName_right hname] at hsame

theorem declares_iff {name : Value} (hname : name.IsName) :
    p.declares name = true ↔ ∃ c ∈ p.credentials, c.name.text? = some name.word := by
  unfold declares find?
  rw [List.find?_isSome]
  simp only [Value.beq_eq_same, Value.same_iff_of_isName_right hname]

section Built

variable {plan : Plan} {registry : Registry} (h : Built plan p registry)
include h

/-- The declared texts are the names of the compiled credentials. -/
theorem declares_text_iff {s : String} :
    p.declares (.text s) = true ↔ s ∈ p.credentials.map fun c => c.name.word := by
  rw [declares_iff (Value.isName_text s), List.mem_map]
  refine exists_congr fun c => and_congr_right fun hc => ?_
  rw [(h.isName hc).text?, Option.some.injEq, Value.word_text]

theorem declares_of_mem {c : Capability} (hc : c ∈ p.credentials) :
    p.declares (.text c.name.word) = true :=
  (declares_text_iff h).mpr (List.mem_map_of_mem hc)

/-- Whatever a path leads to is declared. -/
theorem declares_of_path {r : Relation} {a b : String} (hpath : plan.Lists.Path r a b) :
    p.declares (.text b) = true := by
  obtain ⟨c, hc, rfl⟩ := h.declared_of_path hpath
  exact declares_of_mem h hc

/-- Whatever a compiled credential lists is declared. -/
theorem declares_of_mem_links {c : Capability} (hc : c ∈ p.credentials) {r : Relation} {v : Value}
    (hv : v ∈ c.links.get r) : p.declares (.text v.word) = true :=
  declares_of_path h ((h.links_iff_path hc).mp (List.mem_map_of_mem hv))

end Built

/-- A declared text is formatted with the entity type in front. -/
theorem word_format {v : Value} (hv : v.IsText) (h : p.declares (.text v.word) = true) :
    (p.format v).word = Name.join p.entityType.plain v.word := by
  obtain ⟨s, rfl⟩ := hv
  rw [Value.word_text] at h ⊢
  rw [format, Name.format, h]
  simp

end Lookup

end Policy

end Clearance
