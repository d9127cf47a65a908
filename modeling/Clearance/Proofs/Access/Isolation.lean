import Clearance.Proofs.Access.Choices
import Clearance.Proofs.Policy.Acceptance

/-! Names that count for one entity type alone.

Formatted names carry their entity type, so that what is held for one says nothing about
another. That holds up to the seam: two policies are isolated from each other exactly when
no underscores can be moved between an entity type and the name behind it
(`isolated_iff`), which neither of the checks on names excludes. -/
namespace Clearance

namespace Policy

/-- Nobody who holds names of one policy alone is granted anything by another. -/
def Isolated (A B : Policy) : Prop :=
  ∀ principal : StaticPrincipal,
    (∀ v ∈ principal.held, Value.memberOf v (A.choices.map Prod.fst) = true) →
    ∀ kind, B.declares (.text kind) = true → ∀ mode record strict,
      (checkAccess mode (.holder principal.toHolder) B (.text kind) record strict).outcome =
        .ok false

variable {plan : Plan} {p : Policy} {registry : Registry}

/-- The choices of a policy are the formatted names of what it declares. -/
theorem mem_choices_iff (h : Built plan p registry) (htexts : plan.Texts) {v : Value}
    (hv : v.IsName) : Value.memberOf v (p.choices.map Prod.fst) = true ↔
      ∃ n, p.declares (.text n) = true ∧ v.word = Name.join p.entityType.plain n := by
  have hchoices : ∀ w, w ∈ p.choices.map Prod.fst ↔ _ := fun w => mem_choiceNames_iff h htexts
  rw [Value.memberOf_iff hv]
  constructor
  · intro hmem
    obtain ⟨w, hw, htext⟩ := hmem
    obtain ⟨n, hn, rfl⟩ := (hchoices w).mp hw
    exact ⟨n, hn, (Option.some.inj htext).symm⟩
  · intro hmem
    obtain ⟨n, hn, hword⟩ := hmem
    exact ⟨_, (hchoices _).mpr ⟨n, hn, rfl⟩, congrArg some hword.symm⟩

/-- The separator does not stand in the entity type of a policy. -/
theorem whole_of_build (hbuild : (build plan).outcome = .ok p) {e : String}
    (he : plan.entityType = .text e) : ¬ Name.Separated e := by
  have hchecked : checkEntityType (.text e) = .ok () := he ▸ (build_ok_iff.mp hbuild).1
  exact (checkEntityType_eq_ok_iff.mp hchecked).2.whole

/-- Two policies are isolated when none of their formatted names are one text. -/
theorem isolated_iff_join_ne {planA planB : Plan} {A B : Policy} {registryA registryB : Registry}
    (hA : Built planA A registryA) (hB : Built planB B registryB) (htextsA : planA.Texts)
    (htextsB : planB.Texts)
    (hhooks : ∀ kind, (planB.hooks.getD .empty).accessHook? (.text kind) = none) :
    Isolated A B ↔ ∀ n m, A.declares (.text n) = true → B.declares (.text m) = true →
      Name.join A.entityType.plain n ≠ Name.join B.entityType.plain m := by
  constructor
  · intro hisolated n m hn hm hjoin
    -- whoever holds the one name holds the other
    have hheld : ∀ v ∈ [Value.text (Name.join A.entityType.plain n)],
        Value.memberOf v (A.choices.map Prod.fst) = true := by
      rw [List.forall_mem_singleton, mem_choices_iff hA htextsA (Value.isName_text _)]
      exact ⟨n, hn, rfl⟩
    have hdenied := hisolated ⟨.null, .null, _⟩ hheld m hm .direct .null .null
    have hask : (B.askHook (.text m) .null).outcome = .ok none :=
      askHook_outcome hB (hhooks m) (.inr (.inr rfl))
    have hresolve := resolveAccess_outcome hm hask .null
    obtain ⟨granted, hgranted, hiff⟩ := checkAccess_of_resolved hB htextsB hm hresolve .direct
      ⟨.null, .null, [.text (Name.join A.entityType.plain n)]⟩
    rw [hdenied] at hgranted
    cases hgranted
    refine Bool.false_ne_true (hiff.mpr ⟨m, hm, .inl rfl, ?_⟩)
    rw [← hB.entityType, StaticPrincipal.holds, Value.memberOf_iff (Value.isName_text _)]
    exact ⟨_, List.mem_singleton_self _, congrArg some hjoin⟩
  · intro hdiffer principal hheld kind hkind mode record strict
    obtain ⟨s, hs, hresolve⟩ := exists_resolveAccess hB hkind (hhooks kind) record strict
    obtain ⟨granted, hgranted, hiff⟩ :=
      checkAccess_of_resolved hB htextsB hs hresolve mode principal
    have hdenied : granted = false := by
      rw [Bool.eq_false_iff]
      intro hyes
      obtain ⟨m, hm, -, hholds⟩ := hiff.mp hyes
      rw [← hB.entityType, StaticPrincipal.holds, Value.memberOf_iff (Value.isName_text _)]
        at hholds
      obtain ⟨v, hv, htext⟩ := hholds
      obtain ⟨hname, hword⟩ := Value.text?_eq_some_iff.mp htext
      obtain ⟨n, hn, hjoin⟩ := (mem_choices_iff hA htextsA hname).mp (hheld v hv)
      exact hdiffer n m hn hm (hjoin.symm.trans hword)
    rw [hgranted, hdenied]

/-- **When entity types are isolated.** Two policies of different entity types, the second
one without hooks of the caller, are isolated exactly when no two names that they declare
shift underscores over the seam. -/
theorem isolated_iff {planA planB : Plan} {A B : Policy}
    (hA : (build planA).outcome = .ok A) (hB : (build planB).outcome = .ok B)
    (htextsA : planA.Texts) (htextsB : planB.Texts) {eA eB : String}
    (heA : planA.entityType = .text eA) (heB : planB.entityType = .text eB) (hne : eA ≠ eB)
    (hhooks : ∀ kind, (planB.hooks.getD .empty).accessHook? (.text kind) = none) :
    Isolated A B ↔ ∀ n m, A.declares (.text n) = true → B.declares (.text m) = true →
      ¬ Name.Shifts eA n eB m ∧ ¬ Name.Shifts eB m eA n := by
  obtain ⟨registryA, builtA⟩ := built_of_build hA
  obtain ⟨registryB, builtB⟩ := built_of_build hB
  have hjoin : ∀ n m, Name.join A.entityType.plain n ≠ Name.join B.entityType.plain m ↔
      ¬ Name.Shifts eA n eB m ∧ ¬ Name.Shifts eB m eA n := by
    intro n m
    rw [builtA.entityType, builtB.entityType, heA, heB, Value.plain_text, Value.plain_text, ne_eq,
      Name.join_eq_join_iff (whole_of_build hA heA) (whole_of_build hB heB)]
    simp [hne]
  rw [isolated_iff_join_ne builtA builtB htextsA htextsB hhooks]
  simp only [hjoin]

/-- Entities with one credential of their own and no others. -/
def singlePlan (entityType name : String) : Plan where
  entityType := .text entityType
  includeDefaults := .bool false
  credentials := .list [(Credential.ofNames name none none [] [] [] []).toValue]

theorem texts_singlePlan (entityType name : String) : (singlePlan entityType name).Texts := by
  show ∀ c ∈ [Credential.ofNames name none none [] [] [] []], c.Texts
  simp [Credential.texts_ofNames]

theorem isolated_invoice_receipt : ∃ A B, (build (singlePlan "Invoice" "view")).outcome = .ok A ∧
    (build (singlePlan "Receipt" "view")).outcome = .ok B ∧ Isolated A B := by
  have hinvoice : ((build (singlePlan "Invoice" "view")).outcome.toOption.any fun _ => true) =
      true := by decide +kernel
  have hreceipt : ((build (singlePlan "Receipt" "view")).outcome.toOption.any fun _ => true) =
      true := by decide +kernel
  obtain ⟨A, hA, -⟩ := exists_ok_of_any hinvoice
  obtain ⟨B, hB, -⟩ := exists_ok_of_any hreceipt
  refine ⟨A, B, hA, hB, (isolated_iff hA hB (texts_singlePlan _ _) (texts_singlePlan _ _)
    rfl rfl (by decide) (fun _ => rfl)).mpr ?_⟩
  -- neither entity type begins with the other
  intro n m _ _
  constructor
  · rintro ⟨u, hu, heq, -⟩
    rcases List.mem_pair.mp hu with rfl | rfl <;> exact absurd heq (by decide)
  · rintro ⟨u, hu, heq, -⟩
    rcases List.mem_pair.mp hu with rfl | rfl <;> exact absurd heq (by decide)

/-- Whoever holds the one credential of invoices holds that of another entity type as well:
underscores at the seam belong to either side. -/
theorem not_isolated_invoice : ∃ A B,
    (build (singlePlan "Invoice" "_view")).outcome = .ok A ∧
    (build (singlePlan "Invoice_" "view")).outcome = .ok B ∧ ¬ Isolated A B := by
  have hbuilt : ((build (singlePlan "Invoice" "_view")).outcome.toOption.any fun A =>
      (build (singlePlan "Invoice_" "view")).outcome.toOption.any fun B =>
        Value.memberOf (.text "Invoice____view") (A.choices.map Prod.fst) &&
          (B.declares (.text "view") && (checkAccess .direct
            (.holder (StaticPrincipal.mk .null .null [.text "Invoice____view"]).toHolder) B
              (.text "view") .null .null).outcome.toOption == some true)) = true := by
    decide +kernel
  obtain ⟨A, hA, hrest⟩ := exists_ok_of_any hbuilt
  obtain ⟨B, hB, htest⟩ := exists_ok_of_any hrest
  obtain ⟨hheld, htest⟩ := (Bool.and_eq_true _ _).mp htest
  obtain ⟨hview, hgranted⟩ := (Bool.and_eq_true _ _).mp htest
  refine ⟨A, B, hA, hB, ?_⟩
  intro hisolated
  have hdenied := hisolated ⟨.null, .null, [.text "Invoice____view"]⟩
    (List.forall_mem_singleton.mpr hheld) "view" hview .direct .null .null
  rw [hdenied] at hgranted
  cases hgranted

end Policy

end Clearance
