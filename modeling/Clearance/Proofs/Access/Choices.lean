import Clearance.Proofs.Access.Fields
import Clearance.Proofs.Access.SoftDeletion
import Clearance.Proofs.Credential.Name
import Clearance.Proofs.Resolution.Field

/-! The choices of a policy are its vocabulary.

Whoever fills in what principals hold chooses from the choices of a policy, and the evaluator
asks for what kinds and fields are resolved to. Where the caller has no hooks these are the
same names: every choice satisfies the credential that it is listed for, and whatever implies a
declared credential or is required by a field is declared and stands among the choices, formatted
alike. So names outside the choices are never asked for, and all of them together are enough
(`choices_vocabulary`). -/
namespace Clearance

namespace FieldPolicy

/-- Every credential that a field requires is named by a plain text. -/
def RequiresTexts (f : FieldPolicy) : Prop :=
  ∀ kind name, f.requirement kind = .credential name → name.IsText

end FieldPolicy

namespace Policy

/-- The caller has registered no hooks. -/
def Plan.Unhooked (plan : Plan) : Prop :=
  (plan.hooks.getD .empty).size = 0

/-- The formatted names among which those who fill in what principals hold choose. -/
def choiceNames (p : Policy) : List Value :=
  p.choices.map Prod.fst

/-- What is shown for a credential: its formatted name, its label or else its name, and its
description. -/
def choice (p : Policy) (c : Capability) : Value × Caption Value × Caption Value :=
  (p.format c.name, if c.label.isTrue then c.label else .given c.name, c.description.orText "")

variable {plan : Plan} {p : Policy} {registry : Registry}

/-! ## Without hooks of the caller -/

theorem Plan.Unhooked.tables (h : plan.Unhooked) :
    (plan.hooks.getD .empty).access = [] ∧ (plan.hooks.getD .empty).fields = [] := by
  have hsize : (plan.hooks.getD .empty).access.length +
      (plan.hooks.getD .empty).fields.length = 0 := h
  constructor
  · exact List.length_eq_zero_iff.mp (by omega)
  · exact List.length_eq_zero_iff.mp (by omega)

theorem accessHook?_of_unhooked (h : plan.Unhooked) (kind : Value) :
    (plan.hooks.getD .empty).accessHook? kind = none := by
  rw [HookTable.accessHook?, h.tables.1]
  rfl

/-- Without hooks of the caller no field has a hook: soft deletion brings none. -/
theorem fieldHook?_of_unhooked (h : Built plan p registry) (hunhooked : plan.Unhooked)
    (field kind : Value) : p.hooks.fieldHook? field kind = none := by
  rw [h.hooks, fieldHook?_policyHooks, HookTable.fieldHook?, hunhooked.tables.2]
  rfl

/-! ## The choices -/

/-- The choices are the credentials, each of them once, in the order of their names. -/
theorem choices_perm (p : Policy) : p.choices.Perm (p.credentials.map p.choice) :=
  (List.mergeSort_perm _ _).map _

/-- The names of the choices are the declared ones in ascending order, all with the entity type
in front. -/
theorem choiceNames_eq (h : Built plan p registry) (htexts : plan.Texts) :
    p.choiceNames = ((Value.sortedWords (p.credentials.map fun c => c.name.word)).map
      (Name.join p.entityType.plain)).map .text := by
  have hformat : ∀ c ∈ p.credentials,
      p.format c.name = .text (Name.join p.entityType.plain c.name.word) := by
    intro c hc
    obtain ⟨s, hs⟩ := (h.within (fun _ => Value.isName_of_isText) htexts.merged c hc).1
    have hdeclared := declares_of_mem h hc
    rw [hs, Value.word_text] at hdeclared ⊢
    rw [format_of_declares hdeclared, Value.plain_text]
  have hsorted : (p.credentials.mergeSort fun a b => compare a.name b.name != .gt).map
      (fun c => c.name.word) = Value.sortedWords (p.credentials.map fun c => c.name.word) := by
    refine List.map_mergeSort ?_
    intro a ha b hb
    exact congrArg (· != .gt) (Value.order_of_names (h.isName ha) (h.isName hb))
  rw [← hsorted, choiceNames, choices, List.map_map, List.map_map, List.map_map]
  refine List.map_congr_left fun c hc => ?_
  exact hformat c (List.mem_mergeSort.mp hc)

theorem mem_choiceNames_iff (h : Built plan p registry) (htexts : plan.Texts) {v : Value} :
    v ∈ p.choiceNames ↔
      ∃ n, p.declares (.text n) = true ∧ v = .text (Name.join p.entityType.plain n) := by
  rw [choiceNames_eq h htexts, List.map_map, List.mem_map]
  refine exists_congr fun n => ?_
  rw [declares_text_iff h, Value.sortedWords, List.mem_mergeSort]
  exact and_congr_right fun _ => eq_comm

/-! ## The vocabulary of the evaluator -/

/-- The names that satisfy a declared kind are formatted texts. -/
theorem mem_expandRequirement_iff (h : Built plan p registry) (htexts : plan.Texts)
    {kind : String} (hkind : p.declares (.text kind) = true) {v : Value} :
    v ∈ p.expandRequirement (.text kind) ↔ ∃ d, p.declares (.text d) = true ∧
      (d = kind ∨ Relation.TransGen plan.Lists.Grants d kind) ∧
      v = .text (Name.join p.entityType.plain d) := by
  obtain ⟨c, hfind⟩ := Option.isSome_iff_exists.mp hkind
  have hlisted : ∀ w ∈ p.expandRequirement (.text kind), w.IsText := by
    obtain ⟨others, -, heq⟩ :=
      (satisfiers_expandRequirement h (Value.isName_text kind) hfind).listed
    rw [heq]
    exact List.forall_mem_map.mpr fun d _ => ⟨_, rfl⟩
  constructor
  · intro hv
    obtain ⟨d, hd, hpath, hword⟩ :=
      (expandRequirement_words h htexts hkind).mp (List.mem_map_of_mem hv)
    exact ⟨d, hd, hpath, hword ▸ Value.eq_text_of_isText (hlisted v hv)⟩
  · intro hv
    obtain ⟨d, hd, hpath, rfl⟩ := hv
    obtain ⟨w, hw, hword⟩ := List.mem_map.mp
      ((expandRequirement_words h htexts hkind).mpr ⟨d, hd, hpath, rfl⟩)
    rw [← hword, ← Value.eq_text_of_isText (hlisted w hw)]
    exact hw

/-- Whatever satisfies a declared kind is a choice. -/
theorem expandRequirement_subset (h : Built plan p registry) (htexts : plan.Texts)
    {kind : String} (hkind : p.declares (.text kind) = true) :
    p.expandRequirement (.text kind) ⊆ p.choiceNames := by
  intro v hv
  obtain ⟨d, hd, -, rfl⟩ := (mem_expandRequirement_iff h htexts hkind).mp hv
  exact (mem_choiceNames_iff h htexts).mpr ⟨d, hd, rfl⟩

/-- Without a record every declared kind is resolved to what satisfies itself. -/
theorem resolveAccess_of_unhooked (h : Built plan p registry) (hunhooked : plan.Unhooked)
    {kind : String} (hkind : p.declares (.text kind) = true) (strict : Value) :
    (p.resolveAccess (.text kind) .null strict).outcome =
      .ok (p.expandRequirement (.text kind)) :=
  resolveAccess_outcome hkind
    (askHook_outcome h (accessHook?_of_unhooked hunhooked _) (.inr (.inr rfl))) strict

/-- **The choices are what declared kinds are resolved to.** -/
theorem mem_choiceNames_iff_resolved (h : Built plan p registry) (htexts : plan.Texts)
    (hunhooked : plan.Unhooked) (strict : Value) {v : Value} : v ∈ p.choiceNames ↔
      ∃ kind, p.declares (.text kind) = true ∧
        ∃ names, (p.resolveAccess (.text kind) .null strict).outcome = .ok names ∧ v ∈ names := by
  constructor
  · intro hv
    obtain ⟨n, hn, rfl⟩ := (mem_choiceNames_iff h htexts).mp hv
    exact ⟨n, hn, _, resolveAccess_of_unhooked h hunhooked hn strict,
      (mem_expandRequirement_iff h htexts hn).mpr ⟨n, hn, .inl rfl, rfl⟩⟩
  · intro hv
    obtain ⟨kind, hkind, names, hnames, hmem⟩ := hv
    rw [resolveAccess_of_unhooked h hunhooked hkind] at hnames
    cases hnames
    exact expandRequirement_subset h htexts hkind hmem

/-- A field asks for nothing, or for what satisfies the declared credential that it requires. -/
theorem exists_requirement_of_names (h : Built plan p registry) (hunhooked : plan.Unhooked)
    {field kind record : Value} {names : List Value}
    (hnames : (p.resolveField field kind record).outcome = .ok (.names names)) :
    names = [] ∨ ∃ f ∈ p.fields, ∃ k name,
      f.requirement k = .credential name ∧ names = p.expandRequirement name := by
  unfold resolveField at hnames
  obtain ⟨hook, hhook, hnames⟩ := Run.andThen_outcome_ok.mp hnames
  obtain ⟨_, -, hhook⟩ := bind_eq_ok_iff.mp hhook
  obtain ⟨_, -, hhook⟩ := bind_eq_ok_iff.mp hhook
  have hnone : hook = none :=
    (Except.ok.inj hhook).symm.trans (fieldHook?_of_unhooked h hunhooked field kind)
  subst hnone
  unfold resolveByPolicy at hnames
  obtain ⟨policy, hpolicy, hnames⟩ := Run.andThen_outcome_ok.mp hnames
  obtain ⟨_, -, hfind⟩ := bind_eq_ok_iff.mp hpolicy
  cases policy with
  | none =>
    cases hnames
    exact .inl rfl
  | some f =>
    have hf : f ∈ p.fields := List.mem_of_find?_eq_some (Except.ok.inj hfind)
    simp only at hnames
    split at hnames
    · cases hnames
      exact .inl rfl
    · obtain ⟨_, -, hnames⟩ := Run.andThen_outcome_ok.mp hnames
      cases hnames
    · rename_i name hname
      cases hnames
      unfold FieldPolicy.requirementFor at hname
      split at hname
      · exact .inr ⟨f, hf, _, name, hname, rfl⟩
      · cases hname

/-- Whatever satisfies the requirement of a field is a choice. -/
theorem requirement_subset (h : Built plan p registry) (htexts : plan.Texts)
    (hfields : ∀ f ∈ p.fields, f.RequiresTexts) {f : FieldPolicy} (hf : f ∈ p.fields)
    {k : FieldKind} {name : Value} (hname : f.requirement k = .credential name) :
    p.expandRequirement name ⊆ p.choiceNames := by
  obtain ⟨s, rfl⟩ := hfields f hf k name hname
  exact expandRequirement_subset h htexts (h.declares_requirement hf hname)

/-! ## What principals hold -/

variable {principal : StaticPrincipal} {names : List Value}

/-- Of choices one principal holds any when another does, if they hold the same choices. -/
theorem holdsAny_congr (h : Built plan p registry) (htexts : plan.Texts)
    {other : StaticPrincipal}
    (hagree : ∀ s, .text s ∈ p.choiceNames → other.holds s = principal.holds s)
    (hnames : names ⊆ p.choiceNames) : other.holdsAny names = principal.holdsAny names := by
  have hall : ∀ v ∈ names, v.IsName ∧ other.holds v.word = principal.holds v.word := by
    intro v hv
    obtain ⟨n, -, rfl⟩ := (mem_choiceNames_iff h htexts).mp (hnames hv)
    exact ⟨Value.isName_text _, hagree _ (hnames hv)⟩
  rw [← other.any_holds_word fun v hv => (hall v hv).1,
    ← principal.any_holds_word fun v hv => (hall v hv).1]
  rw [Bool.eq_iff_iff, List.any_eq_true, List.any_eq_true]
  exact exists_congr fun v => and_congr_right fun hv => by rw [(hall v hv).2]

/-- Whoever holds all choices holds any of some that there are. -/
theorem holdsAny_of_holds (h : Built plan p registry) (htexts : plan.Texts)
    (hall : ∀ s, .text s ∈ p.choiceNames → principal.holds s = true)
    (hnames : names ⊆ p.choiceNames) (hsome : names ≠ []) : principal.holdsAny names = true := by
  obtain ⟨v, rest, rfl⟩ := List.exists_cons_of_ne_nil hsome
  obtain ⟨n, -, rfl⟩ := (mem_choiceNames_iff h htexts).mp (hnames List.mem_cons_self)
  exact List.any_eq_true.mpr ⟨_, List.mem_cons_self, hall _ (hnames List.mem_cons_self)⟩

variable {kind : String}

/-- An access check asks for nothing but choices. -/
theorem checkAccess_congr (h : Built plan p registry) (htexts : plan.Texts)
    (hunhooked : plan.Unhooked) (hkind : p.declares (.text kind) = true) {other : StaticPrincipal}
    (hagree : ∀ s, .text s ∈ p.choiceNames → other.holds s = principal.holds s) (mode : Mode)
    (record strict : Value) :
    (checkAccess mode (.holder other.toHolder) p (.text kind) record strict).outcome =
      (checkAccess mode (.holder principal.toHolder) p (.text kind) record strict).outcome := by
  obtain ⟨s, hs, hresolve⟩ :=
    exists_resolveAccess h hkind (accessHook?_of_unhooked hunhooked _) record strict
  rw [checkAccess_outcome h.listsNames, checkAccess_outcome h.listsNames, hresolve]
  exact congrArg Except.ok
    (holdsAny_congr h htexts hagree (expandRequirement_subset h htexts hs))

/-- Neither does a check of a field. -/
theorem checkFieldAccess_congr (h : Built plan p registry) (htexts : plan.Texts)
    (hfields : ∀ f ∈ p.fields, f.RequiresTexts) (hunhooked : plan.Unhooked)
    (hkind : p.declares (.text kind) = true) {other : StaticPrincipal}
    (hagree : ∀ s, .text s ∈ p.choiceNames → other.holds s = principal.holds s) (mode : Mode)
    (field record strict : Value) :
    (checkFieldAccess mode (.holder other.toHolder) p field (.text kind) record strict).outcome =
      (checkFieldAccess mode (.holder principal.toHolder) p field (.text kind) record
        strict).outcome := by
  cases hres : (p.resolveField field (.text kind) record).outcome with
  | error e => rw [checkFieldAccess_of_error hres, checkFieldAccess_of_error hres]
  | ok resolution =>
    cases resolution with
    | forbidden => rw [checkFieldAccess_of_forbidden hres, checkFieldAccess_of_forbidden hres]
    | names names =>
      have hnames := isName_of_resolveField h.listsNames h.requiresNames hres
      have hsubset : names ⊆ p.choiceNames := by
        rcases exists_requirement_of_names h hunhooked hres with rfl | ⟨f, hf, k, name, hname, rfl⟩
        · exact List.nil_subset _
        · exact requirement_subset h htexts hfields hf hname
      rw [checkFieldAccess_of_names h.listsNames hnames hres,
        checkFieldAccess_of_names h.listsNames hnames hres,
        checkAccess_congr h htexts hunhooked hkind hagree, holdsAny_congr h htexts hagree hsubset]

/-- Whoever holds all choices is granted every declared kind. -/
theorem checkAccess_of_holds (h : Built plan p registry) (htexts : plan.Texts)
    (hunhooked : plan.Unhooked) (hkind : p.declares (.text kind) = true)
    (hall : ∀ s, .text s ∈ p.choiceNames → principal.holds s = true) (mode : Mode)
    (record strict : Value) :
    (checkAccess mode (.holder principal.toHolder) p (.text kind) record strict).outcome =
      .ok true := by
  obtain ⟨s, hs, hresolve⟩ :=
    exists_resolveAccess h hkind (accessHook?_of_unhooked hunhooked _) record strict
  rw [checkAccess_outcome h.listsNames, hresolve]
  exact congrArg Except.ok (holdsAny_of_holds h htexts hall
    (expandRequirement_subset h htexts hs) (expandRequirement_ne_nil _))

/-- And every field that is not forbidden for it. -/
theorem checkFieldAccess_of_holds (h : Built plan p registry) (htexts : plan.Texts)
    (hfields : ∀ f ∈ p.fields, f.RequiresTexts) (hunhooked : plan.Unhooked)
    (hkind : p.declares (.text kind) = true)
    (hall : ∀ s, .text s ∈ p.choiceNames → principal.holds s = true) (mode : Mode) {field : Value}
    (hfield : field.IsName) (hfree : ¬ p.Configures field (.text kind) .forbidden)
    (record strict : Value) :
    (checkFieldAccess mode (.holder principal.toHolder) p field (.text kind) record
      strict).outcome = .ok true := by
  have haccess := checkAccess_of_holds h htexts hunhooked hkind hall mode record strict
  obtain ⟨names, hres⟩ : ∃ names,
      (p.resolveField field (.text kind) record).outcome = .ok (.names names) := by
    obtain ⟨r, hr⟩ := exists_configures p field (.text kind)
    rw [resolveField_eq hfield (Value.isName_text kind), fieldHook?_of_unhooked h hunhooked]
    have hasked := (resolveByPolicy_of_configures hfield (Value.isName_text kind) hr).1
    cases r with
    | forbidden => exact absurd hr hfree
    | free => exact ⟨_, hasked⟩
    | credential name => exact ⟨_, hasked⟩
  have hnames := isName_of_resolveField h.listsNames h.requiresNames hres
  rw [checkFieldAccess_of_names h.listsNames hnames hres, haccess]
  rcases exists_requirement_of_names h hunhooked hres with rfl | ⟨f, hf, k, name, hname, rfl⟩
  · rfl
  · have hheld := holdsAny_of_holds h htexts hall
      (requirement_subset h htexts hfields hf hname) (expandRequirement_ne_nil name)
    simp [Except.map, hheld]

/-- **The choices are exactly the vocabulary of the evaluator.** Where the caller has no hooks, the
choices list every declared credential once, their names are in strictly ascending order, and
they are just the names that declared kinds are resolved to without a record. So a principal that
keeps of its names only the choices is answered as before, on declared kinds and on any field
with them, and one that holds all choices is granted every declared kind and with it every field
that is not forbidden. -/
theorem choices_vocabulary (hbuild : (build plan).outcome = .ok p) (htexts : plan.Texts)
    (hfields : ∀ f ∈ p.fields, f.RequiresTexts) (hunhooked : plan.Unhooked) :
    p.choices.Perm (p.credentials.map p.choice) ∧
    (∃ names : List String, p.choiceNames = names.map .text ∧ Ascending.Strict names) ∧
    (∀ strict kind, p.declares (.text kind) = true →
      ∃ names, (p.resolveAccess (.text kind) .null strict).outcome = .ok names) ∧
    (∀ strict v, v ∈ p.choiceNames ↔ ∃ kind, p.declares (.text kind) = true ∧
      ∃ names, (p.resolveAccess (.text kind) .null strict).outcome = .ok names ∧ v ∈ names) ∧
    ∀ kind, p.declares (.text kind) = true →
      ∀ (mode : Mode) (principal : StaticPrincipal) (record strict : Value),
      (∀ kept : StaticPrincipal,
        (∀ s, kept.holds s = true ↔ principal.holds s = true ∧ .text s ∈ p.choiceNames) →
        (checkAccess mode (.holder kept.toHolder) p (.text kind) record strict).outcome =
          (checkAccess mode (.holder principal.toHolder) p (.text kind) record strict).outcome ∧
        ∀ field, (checkFieldAccess mode (.holder kept.toHolder) p field (.text kind) record
            strict).outcome =
          (checkFieldAccess mode (.holder principal.toHolder) p field (.text kind) record
            strict).outcome) ∧
      ((∀ s, .text s ∈ p.choiceNames → principal.holds s = true) →
        (checkAccess mode (.holder principal.toHolder) p (.text kind) record strict).outcome =
          .ok true ∧
        ∀ field : Value, field.IsName → ¬ p.Configures field (.text kind) .forbidden →
          (checkFieldAccess mode (.holder principal.toHolder) p field (.text kind) record
            strict).outcome = .ok true) := by
  obtain ⟨registry, h⟩ := built_of_build hbuild
  refine ⟨choices_perm p, ⟨_, choiceNames_eq h htexts, ?_⟩, ?_, ?_, ?_⟩
  · exact Name.strict_map_join _ (Value.strict_sortedWords h.nodup_words)
  · intro strict kind hkind
    exact ⟨_, resolveAccess_of_unhooked h hunhooked hkind strict⟩
  · intro strict v
    exact mem_choiceNames_iff_resolved h htexts hunhooked strict
  · intro kind hkind mode principal record strict
    refine ⟨fun kept hkept => ?_, fun hall => ?_⟩
    · have hagree : ∀ s, .text s ∈ p.choiceNames → kept.holds s = principal.holds s := by
        intro s hs
        rw [Bool.eq_iff_iff, hkept, and_iff_left hs]
      exact ⟨checkAccess_congr h htexts hunhooked hkind hagree mode record strict,
        fun field => checkFieldAccess_congr h htexts hfields hunhooked hkind hagree mode field
          record strict⟩
    · exact ⟨checkAccess_of_holds h htexts hunhooked hkind hall mode record strict,
        fun field hfield hfree => checkFieldAccess_of_holds h htexts hfields hunhooked hkind hall
          mode hfield hfree record strict⟩

/-- Accounts whose number is a matter of those who may edit. -/
def accountPlan : Plan where
  entityType := .text "Account"
  includeDefaults := .bool false
  credentials := .list
    [(Credential.ofNames "view" none none [] ["edit"] [] []).toValue,
      (Credential.ofNames "edit" none none [] [] [] []).toValue]
  fields := .dict [(.text "iban", .dict [(.text "view", .text "edit"),
    (.text "create", .text "edit"), (.text "edit", .text "edit")])]

/-- Whoever views accounts, and something else besides. -/
def accountViewer : StaticPrincipal :=
  ⟨.null, .null, [.text "Account___view", .text "Invoice___edit"]⟩

/-- Whoever holds all there is for accounts. -/
def accountOwner : StaticPrincipal :=
  ⟨.null, .null, [.text "Account___view", .text "Account___edit"]⟩

theorem texts_accountPlan : accountPlan.Texts := by
  show ∀ c ∈ [Credential.ofNames "view" none none [] ["edit"] [] [],
    Credential.ofNames "edit" none none [] [] [] []], c.Texts
  simp [Credential.texts_ofNames]

/-- What a viewer of accounts holds elsewhere does not count for their number, and the owner is
shown it. -/
theorem choices_account : ∃ p, (build accountPlan).outcome = .ok p ∧
    p.choiceNames = [.text "Account___edit", .text "Account___view"] ∧
    (checkFieldAccess .direct
        (.holder (StaticPrincipal.mk .null .null [.text "Account___view"]).toHolder) p
        (.text "iban") (.text "view") .null .null).outcome =
      (checkFieldAccess .direct (.holder accountViewer.toHolder) p (.text "iban") (.text "view")
        .null .null).outcome ∧
    (checkFieldAccess .direct (.holder accountOwner.toHolder) p (.text "iban") (.text "view")
      .null .null).outcome = .ok true := by
  have hbuilt : ((build accountPlan).outcome.toOption.any fun p =>
      p.credentials.map (fun c => c.name.word) == ["view", "edit"] &&
        p.fields.all fun f => [FieldKind.view, .create, .edit].all fun k =>
          (f.requirement k).toValue.isText) = true := by decide +kernel
  obtain ⟨p, hp, htest⟩ := exists_ok_of_any hbuilt
  simp only [Bool.and_eq_true, beq_iff_eq, List.all_eq_true] at htest
  obtain ⟨hwords, htextual⟩ := htest
  obtain ⟨registry, h⟩ := built_of_build hp
  have hnames : p.choiceNames = [.text "Account___edit", .text "Account___view"] := by
    have hsorted : Value.sortedWords ["view", "edit"] = ["edit", "view"] := by
      refine Ascending.eq_of_mem_iff (Value.strict_sortedWords (by decide))
        (List.pairwise_pair.mpr (by decide)) fun s => ?_
      rw [Value.sortedWords, List.mem_mergeSort, List.mem_pair, List.mem_pair]
      exact or_comm
    rw [choiceNames_eq h texts_accountPlan, hwords, hsorted, h.entityType]
    rfl
  have hrequires : ∀ f ∈ p.fields, ∀ k, (f.requirement k).toValue.IsText := by
    intro f hf k
    exact Value.isText_iff.mp (htextual f hf k (by cases k <;> simp))
  have hfields : ∀ f ∈ p.fields, f.RequiresTexts := by
    intro f hf k name hname
    have htext := hrequires f hf k
    rwa [hname] at htext
  have hfree : ¬ p.Configures (.text "iban") (.text "view") .forbidden := by
    intro hforbidden
    generalize hr : Requirement.forbidden = r at hforbidden
    cases hforbidden with
    | unconfigured _ => cases hr
    | beyond _ => cases hr
    | stated hfind _ =>
      obtain ⟨s, htext⟩ := hrequires _ (List.mem_of_find?_eq_some hfind) _
      rw [← hr] at htext
      cases htext
  have hview : p.declares (.text "view") = true := by
    rw [declares_text_iff h, hwords]
    exact List.mem_cons_self
  obtain ⟨-, -, -, -, hchecks⟩ := choices_vocabulary hp texts_accountPlan hfields rfl
  refine ⟨p, hp, hnames, ?_, ?_⟩
  · refine ((hchecks "view" hview .direct accountViewer .null .null).1 _ ?_).2 _
    intro s
    simp only [hnames, StaticPrincipal.holds, Value.memberOf_iff (Value.isName_text s)]
    simp only [accountViewer, Value.word_text, List.mem_cons, List.not_mem_nil, or_false,
      exists_eq_or_imp, exists_eq_left, Value.text?_text, Option.some.injEq, Value.text.injEq]
    constructor
    · intro hs
      subst hs
      exact ⟨.inl rfl, .inr rfl⟩
    · rintro ⟨hs | hs, hchoice⟩
      · exact hs
      · subst hs
        exact absurd hchoice (by decide)
  · refine ((hchecks "view" hview .direct accountOwner .null .null).2 ?_).2 _
      (Value.isName_text "iban") hfree
    intro s hs
    simp only [hnames, List.mem_cons, List.not_mem_nil, or_false, Value.text.injEq] at hs
    rcases hs with rfl | rfl <;> decide +kernel

end Policy

end Clearance
