import Clearance.Proofs.Access.Grants

/-! Viewing records that may be deleted.

Soft deletion adds two credentials, one for the deleted records and one for the others,
and a hook that asks for the one that fits the record. Both are children of viewing, and
stay so whatever else is declared: `checkAccess_view_record` says who may view which
record, and that viewing without a record in hand is enough for all of them. -/
namespace Clearance

/-! ## The state of a record -/

/-- A record is deleted when something other than null stands under its marker. -/
def Deleted (marker : String) (record : Value) : Prop :=
  (record.attributeOf (.text marker)).isNull = false

instance (marker : String) (record : Value) : Decidable (Deleted marker record) :=
  inferInstanceAs (Decidable (_ = _))

theorem isNull_part (v : Value) : (Attribute.part v).isNull = true ↔ v = .null := by
  cases v <;> simp [Attribute.isNull]

/-- A mapping is deleted by what it holds under the marker. -/
theorem deleted_dict {marker : String} {entries : List (Value × Value)} :
    Deleted marker (.dict entries) ↔
      ∃ v, Value.at? (.text marker) entries = some v ∧ v ≠ .null := by
  simp only [Deleted, Value.attributeOf, Value.entries?_dict, Bool.eq_false_iff, ne_eq,
    isNull_part]
  cases Value.at? (.text marker) entries with
  | none => simp [Value.orNull]
  | some v => simp [Value.orNull]

/-- An object is deleted by the attribute that is called like the marker. -/
theorem deleted_record {marker : String} {identity : Nat} {attributes : List (String × Value)}
    {v : Value} (h : attributes.lookup marker = some v) :
    Deleted marker (.record identity attributes) ↔ v ≠ .null := by
  have hpart : (Value.record identity attributes).attributeOf (.text marker) = .part v := by
    simp [Value.attributeOf, Value.entries?, Value.bare, Value.attributeNamed, Value.parts,
      List.lookup_append, h]
  rw [Deleted, hpart, Bool.eq_false_iff, ne_eq, isNull_part]

/-- What viewing a record comes down to. -/
def viewKind (marker : String) (record : Value) : AccessKind :=
  if Deleted marker record then .viewDeleted else .viewUndeleted

/-- The answer of the record-state hook to a record. -/
theorem deletionAnswer_of_ne_null (marker : String) {record : Value} (h : record ≠ .null) :
    deletionAnswer (.text marker) record = .text (viewKind marker record).name := by
  unfold deletionAnswer viewKind Deleted
  split
  · exact absurd rfl h
  · by_cases hnull : (record.attributeOf (.text marker)).isNull = true
    · simp [hnull]
    · simp [Bool.eq_false_iff.mpr hnull]

namespace Policy

variable {plan : Plan} {p : Policy} {registry : Registry}

/-- The name under which records carry their deletion marker. -/
def Plan.marker (plan : Plan) : String :=
  (plan.settings.getD {}).softDeleteField

/-! ## What soft deletion declares -/

section Declares

variable (hsoft : plan.softDelete.isTrue = true)
include hsoft

theorem mem_merged_of_softDeletion {c : Credential} (hc : c ∈ Credential.softDeletion) :
    c ∈ plan.merged := by
  rw [Plan.merged, Registry.builtIn, if_pos hsoft]
  exact List.mem_append_left _ (List.mem_append_right _ hc)

/-- Viewing grants viewing in either state, whatever else is declared. -/
theorem grants_viewKind (marker : String) (record : Value) :
    plan.Lists.Grants AccessKind.view.name (viewKind marker record).name := by
  have hparent : ∀ c ∈ Credential.softDeletion, ∀ s, c.name.text? = some s →
      c.Lists .subrightOf AccessKind.view.name →
      plan.Lists.Grants AccessKind.view.name s :=
    fun c hc s hs hlist => .inr (.inr (.inr ⟨c, mem_merged_of_softDeletion hsoft hc, hs, hlist⟩))
  unfold viewKind
  split
  · exact hparent _ (.tail _ (.tail _ (.head _))) _ rfl ⟨_, rfl, _, .head _, rfl⟩
  · exact hparent _ (.tail _ (.head _)) _ rfl ⟨_, rfl, _, .head _, rfl⟩

/-- Both states and viewing itself are declared in every policy with soft deletion. -/
theorem declares_viewKind (h : Built plan p registry) (marker : String) (record : Value) :
    p.declares (.text AccessKind.view.name) = true ∧
      p.declares (.text (viewKind marker record).name) = true := by
  have hgrants := grants_viewKind hsoft marker record
  -- the edge between them can be walked from either end
  exact ⟨declares_of_path h (r := .impliedBy) (.single hgrants),
    declares_of_path h (r := .implies) (.single hgrants)⟩

/-! ## What is asked for -/

/-- Without a view hook of the caller, a record is viewed in its state. -/
theorem askHook_of_record (h : Built plan p registry)
    (hhook : (plan.hooks.getD .empty).accessHook? (.text AccessKind.view.name) = none)
    {record : Value} (hrecord : record ≠ .null) :
    (p.askHook (.text AccessKind.view.name) record).outcome =
      .ok (some (.text (viewKind plan.marker record).name)) := by
  have hplaced : p.hooks.accessHook? (.text AccessKind.view.name) =
      some (Hook.softDeletion plan.marker) := by
    have hview := accessHook?_policyHooks hhook
    rw [if_pos ⟨hsoft, rfl⟩] at hview
    rw [h.hooks]
    exact hview
  have hcall : (Hook.softDeletion plan.marker).call [record] =
      Run.answer (.text (viewKind plan.marker record).name) :=
    congrArg Run.answer (deletionAnswer_of_ne_null plan.marker hrecord)
  have hanswered : p.Answered (.text AccessKind.view.name) record
      (Hook.softDeletion plan.marker) (.text (viewKind plan.marker record).name) :=
    ⟨hplaced, congrArg Run.outcome hcall, by simp⟩
  exact askHook_of_name (Value.isName_text _) hanswered (Value.isName_text _)

end Declares

/-- A declared kind that the caller has no hook for is resolved to something declared. -/
theorem exists_resolveAccess (h : Built plan p registry) {kind : String}
    (hkind : p.declares (.text kind) = true)
    (hhook : (plan.hooks.getD .empty).accessHook? (.text kind) = none) (record strict : Value) :
    ∃ s, p.declares (.text s) = true ∧
      (p.resolveAccess (.text kind) record strict).outcome =
        .ok (p.expandRequirement (.text s)) := by
  by_cases hstate : plan.softDelete.isTrue = true ∧ kind = AccessKind.view.name ∧ record ≠ .null
  · obtain ⟨hsoft, rfl, hrecord⟩ := hstate
    have hask := askHook_of_record hsoft h hhook hrecord
    exact ⟨_, (declares_viewKind hsoft h plan.marker record).2,
      resolveAccess_outcome_of_answer hask strict⟩
  · have hother : plan.softDelete.isTrue = false ∨ kind ≠ AccessKind.view.name ∨
        record = .null := by
      rw [not_and_or, not_and_or, not_not, Bool.not_eq_true] at hstate
      exact hstate
    exact ⟨kind, hkind, resolveAccess_outcome hkind (askHook_outcome h hhook hother) strict⟩

/-- **Who may view which record.** With soft deletion, and without a view hook of the
caller, viewing a record is decided by whether it is deleted, never fails, and is granted
exactly along the paths to the credential for that state. Whoever may view without a
record may view each one. -/
theorem checkAccess_view_record (hbuild : (build plan).outcome = .ok p) (htexts : plan.Texts)
    (hsoft : plan.softDelete.isTrue = true)
    (hhook : (plan.hooks.getD .empty).accessHook? (.text AccessKind.view.name) = none)
    {record : Value} (hrecord : record ≠ .null) (mode : Mode) (principal : StaticPrincipal)
    (strict : Value) :
    ∃ granted,
      (checkAccess mode (.holder principal.toHolder) p (.text AccessKind.view.name) record
        strict).outcome = .ok granted ∧
      (granted = true ↔ ∃ d, p.declares (.text d) = true ∧
        (d = (viewKind plan.marker record).name ∨
          Relation.TransGen plan.Lists.Grants d (viewKind plan.marker record).name) ∧
        principal.holds (plan.entityType.plain ++ separator ++ d) = true) ∧
      ∀ mode' strict', (checkAccess mode' (.holder principal.toHolder) p
        (.text AccessKind.view.name) .null strict').outcome = .ok true → granted = true := by
  obtain ⟨registry, h⟩ := built_of_build hbuild
  obtain ⟨hview, hstate⟩ := declares_viewKind hsoft h plan.marker record
  have hresolve := resolveAccess_outcome_of_answer (askHook_of_record hsoft h hhook hrecord) strict
  obtain ⟨granted, hgranted, hiff⟩ :=
    checkAccess_of_resolved h htexts hstate hresolve mode principal
  refine ⟨granted, hgranted, hiff, ?_⟩
  intro mode' strict' hpass
  have hask : (p.askHook (.text AccessKind.view.name) .null).outcome = .ok none :=
    askHook_outcome h hhook (.inr (.inr rfl))
  have hwithout := resolveAccess_outcome hview hask strict'
  obtain ⟨passed, hpassed, hpaths⟩ :=
    checkAccess_of_resolved h htexts hview hwithout mode' principal
  rw [hpass] at hpassed
  cases hpassed
  -- a path to viewing goes on to the state of the record
  obtain ⟨d, hdeclared, hd, hheld⟩ := hpaths.mp rfl
  have hedge := grants_viewKind hsoft plan.marker record
  refine hiff.mpr ⟨d, hdeclared, .inr ?_, hheld⟩
  rcases hd with rfl | hpath
  · exact .single hedge
  · exact hpath.tail hedge

/-- Posts that are only marked as deleted, without the default credentials: the ones that
soft deletion refers to are declared, and nothing is said about the states. -/
def postPlan : Plan where
  entityType := .text "Post"
  includeDefaults := .bool false
  softDelete := .bool true
  credentials := .list
    [(Credential.ofNames "manager" none none [] [] [] []).toValue,
      (Credential.ofNames "view" none none [] [] [] []).toValue]

/-- Who may view posts. -/
def postReader : StaticPrincipal :=
  ⟨.list [.text "Post___view"], .null, [.text "Post___view"]⟩

theorem checkAccess_post_view : ∃ p, (build postPlan).outcome = .ok p ∧
    Deleted postPlan.marker (.dict [(.text postPlan.marker, .date 2024 2 29)]) ∧
    (checkAccess .direct (.holder postReader.toHolder) p (.text AccessKind.view.name)
      (.dict [(.text postPlan.marker, .date 2024 2 29)]) (.bool true)).outcome = .ok true := by
  have hbuilt : ((build postPlan).outcome.toOption.any fun p =>
      p.declares (.text "view")) = true := by decide +kernel
  have hdeleted : Deleted postPlan.marker (.dict [(.text postPlan.marker, .date 2024 2 29)]) :=
    deleted_dict.mpr ⟨.date 2024 2 29, by simp [Value.at?], by simp⟩
  have htexts : postPlan.Texts := by
    show ∀ c ∈ [Credential.ofNames "manager" none none [] [] [] [],
      Credential.ofNames "view" none none [] [] [] []], c.Texts
    simp [Credential.texts_ofNames]
  obtain ⟨p, hp, hview⟩ := exists_ok_of_any hbuilt
  have hrecord : Value.dict [(.text postPlan.marker, .date 2024 2 29)] ≠ .null := by simp
  obtain ⟨granted, hgranted, hiff, -⟩ := checkAccess_view_record hp htexts rfl rfl hrecord
    .direct postReader (.bool true)
  have hpath : granted = true :=
    hiff.mpr ⟨"view", hview, .inr (.single (grants_viewKind rfl _ _)), by decide +kernel⟩
  exact ⟨p, hp, hdeleted, hpath ▸ hgranted⟩

end Policy

end Clearance
