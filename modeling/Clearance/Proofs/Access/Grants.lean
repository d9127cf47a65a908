import Clearance.Proofs.Resolution.Kind

/-! Who is granted access to an entity type.

A credential grants another when a path of merged declarations leads from one to the
other. `checkAccess_iff_path` says that nobody else is granted anything and that nobody
is left out: the registry, the compiler, the resolver, the formatted names and the
decision of the principal amount to a search for a path. -/
namespace Clearance

namespace Policy

variable {plan : Plan} {p : Policy} {registry : Registry}

/-- Where the caller has no hook, only the record-state hook of viewing is left. -/
theorem accessHook?_policyHooks {kind : String}
    (hhook : (plan.hooks.getD .empty).accessHook? (.text kind) = none) :
    (policyHooks plan).accessHook? (.text kind) =
      if plan.softDelete.isTrue = true ∧ kind = AccessKind.view.name then
        some (Hook.softDeletion (plan.settings.getD {}).softDeleteField)
      else none := by
  have hbase : (plan.hooks.getD .empty).copy.accessHook? (.text kind) = none := hhook
  by_cases hview : kind = AccessKind.view.name
  · subst hview
    cases hsoft : plan.softDelete.isTrue with
    | false => simp [policyHooks, hsoft, hbase]
    | true =>
      have hplaced : (plan.softDelete.isTrue && ((plan.hooks.getD .empty).copy.accessHook?
          (.text AccessKind.view.name)).isNone) = true := by
        rw [hsoft, hbase]
        rfl
      simp only [policyHooks, if_pos hplaced]
      exact Entries.lookup_put_text _
  · simp only [policyHooks]
    split
    · simpa [HookTable.accessHook?, Entries.lookup_put_text, hview] using hbase
    · simpa [hview] using hbase

/-- Without a hook of the caller nobody answers in place of the default rules, unless
the record-state hook sees a record. -/
theorem askHook_outcome (h : Built plan p registry) {kind : String}
    (hhook : (plan.hooks.getD .empty).accessHook? (.text kind) = none) {record : Value}
    (hrecord : plan.softDelete.isTrue = false ∨ kind ≠ AccessKind.view.name ∨ record = .null) :
    (p.askHook (.text kind) record).outcome = .ok none := by
  refine askHook_of_unanswered (Value.isName_text kind) fun hook hfind => ?_
  have hplaced : (policyHooks plan).accessHook? (.text kind) = some hook := by
    rw [h.hooks] at hfind
    exact hfind
  rw [accessHook?_policyHooks hhook] at hplaced
  split at hplaced
  · rename_i hsoft
    have hnull : record = .null := by
      rcases hrecord with hs | hk | hr
      · rw [hs] at hsoft
        exact absurd hsoft.1 Bool.false_ne_true
      · exact absurd hsoft.2 hk
      · exact hr
    -- the record-state hook declines, because there is no record
    cases hplaced
    subst hnull
    rfl
  · cases hplaced

/-- A declared kind stands for itself, whatever the strictness. -/
theorem resolveAccess_outcome {kind : String} (hkind : p.declares (.text kind) = true)
    {record : Value} (hask : (p.askHook (.text kind) record).outcome = .ok none)
    (strict : Value) :
    (p.resolveAccess (.text kind) record strict).outcome =
      .ok (p.expandRequirement (.text kind)) := by
  rw [resolveAccess_of_askHook_none (Value.isName_text kind) hask, hkind, Bool.not_true,
    Bool.and_false, if_neg Bool.false_ne_true]

/-- Without strictness a kind stands for itself, declared or not. -/
theorem resolveAccess_outcome_of_lenient {kind record strict : Value} (hkind : kind.IsName)
    (hask : (p.askHook kind record).outcome = .ok none) (hstrict : p.isStrict strict = false) :
    (p.resolveAccess kind record strict).outcome = .ok (p.expandRequirement kind) := by
  rw [resolveAccess_of_askHook_none hkind hask, hstrict, Bool.false_and,
    if_neg Bool.false_ne_true]

/-- What a hook names is resolved in place of the kind, whatever the strictness. -/
theorem resolveAccess_outcome_of_answer {kind record : Value} {s : String}
    (hask : (p.askHook kind record).outcome = .ok (some (.text s))) (strict : Value) :
    (p.resolveAccess kind record strict).outcome = .ok (p.expandRequirement (.text s)) :=
  resolveAccess_of_askHook_some (Value.isName_text s) hask strict

/-! ## Paths -/

/-- The names that satisfy a declared kind: the kind itself and all from where a path
leads to it. -/
theorem expandRequirement_words (h : Built plan p registry) (htexts : plan.Texts)
    {kind : String} (hkind : p.declares (.text kind) = true) {formatted : String} :
    formatted ∈ (p.expandRequirement (.text kind)).map Value.word ↔
      ∃ d, p.declares (.text d) = true ∧
        (d = kind ∨ Relation.TransGen plan.Lists.Grants d kind) ∧
        formatted = Name.join p.entityType.plain d := by
  obtain ⟨c, hfind⟩ := Option.isSome_iff_exists.mp hkind
  obtain ⟨hc, hname⟩ := find?_eq_some (Value.isName_text kind) hfind
  have hword : c.name.word = kind := (Value.text?_eq_some_iff.mp hname).2
  have hwithin := h.within (fun _ => Value.isName_of_isText) htexts.merged c hc
  have hall : ∀ v ∈ Value.text kind :: c.links.impliedBy, v.IsText :=
    List.forall_mem_cons.mpr ⟨⟨kind, rfl⟩, hwithin.2 .impliedBy⟩
  have hdeclares : ∀ v ∈ Value.text kind :: c.links.impliedBy, p.declares (.text v.word) = true :=
    List.forall_mem_cons.mpr
      ⟨hkind, fun v hv => declares_of_mem_links h hc (r := .impliedBy) hv⟩
  have hformat : ∀ v ∈ Value.text kind :: c.links.impliedBy,
      (p.format v).word = Name.join p.entityType.plain v.word :=
    fun v hv => word_format (hall v hv) (hdeclares v hv)
  rw [expandRequirement, hfind]
  simp only [formatAll]
  rw [Value.mem_map_word_distinct]
  · constructor
    · intro hmem
      obtain ⟨w, hw, rfl⟩ := List.mem_map.mp hmem
      obtain ⟨v, hv, rfl⟩ := List.mem_map.mp hw
      refine ⟨v.word, hdeclares v hv, ?_, hformat v hv⟩
      rcases List.mem_cons.mp hv with rfl | hv
      · exact .inl rfl
      · right
        have hpath := (h.links_iff_path hc (r := .impliedBy)).mp (List.mem_map_of_mem hv)
        rwa [hword] at hpath
    · -- a credential at the start of a path stands among those that imply the kind
      rintro ⟨d, -, hd, rfl⟩
      rcases hd with rfl | hpath
      · rw [← Value.word_text d, ← hformat _ List.mem_cons_self]
        exact List.mem_map_of_mem (List.mem_map_of_mem List.mem_cons_self)
      · rw [← hword] at hpath
        obtain ⟨v, hv, rfl⟩ :=
          List.mem_map.mp ((h.links_iff_path hc (r := .impliedBy)).mpr hpath)
        rw [← hformat v (List.mem_cons_of_mem _ hv)]
        exact List.mem_map_of_mem (List.mem_map_of_mem (List.mem_cons_of_mem _ hv))
  · simp only [List.forall_mem_map]
    exact fun v hv => isName_format (Value.isName_of_isText (hall v hv))

/-- Once a check is resolved to a declared name, it is decided by the paths to that name. -/
theorem checkAccess_of_resolved (h : Built plan p registry) (htexts : plan.Texts)
    {kind record strict : Value} {s : String} (hs : p.declares (.text s) = true)
    (hresolve : (p.resolveAccess kind record strict).outcome =
      .ok (p.expandRequirement (.text s))) (mode : Mode) (principal : StaticPrincipal) :
    ∃ granted,
      (checkAccess mode (.holder principal.toHolder) p kind record strict).outcome =
        .ok granted ∧
      (granted = true ↔ ∃ d, p.declares (.text d) = true ∧
        (d = s ∨ Relation.TransGen plan.Lists.Grants d s) ∧
        principal.holds (plan.entityType.plain ++ separator ++ d) = true) := by
  have hnames := isName_of_resolveAccess h.listsNames hresolve
  refine ⟨principal.holdsAny (p.expandRequirement (.text s)), ?_, ?_⟩
  · rw [checkAccess_outcome h.listsNames, hresolve]
    rfl
  · rw [principal.holdsAny_iff hnames, ← h.entityType]
    constructor
    · rintro ⟨formatted, hmem, hheld⟩
      obtain ⟨d, hdeclared, hd, rfl⟩ := (expandRequirement_words h htexts hs).mp hmem
      exact ⟨d, hdeclared, hd, hheld⟩
    · rintro ⟨d, hdeclared, hd, hheld⟩
      exact ⟨_, (expandRequirement_words h htexts hs).mpr ⟨d, hdeclared, hd, rfl⟩, hheld⟩

/-- **No under- and no over-granting.** For a declared kind that no hook answers for, a
principal with a fixed set of credentials is granted access exactly when it holds the
formatted name of a declared credential that is the kind itself or from which a path of
merged declarations leads to it. -/
theorem checkAccess_iff_path (hbuild : (build plan).outcome = .ok p) (htexts : plan.Texts)
    {kind : String} (hkind : p.declares (.text kind) = true)
    (hhook : (plan.hooks.getD .empty).accessHook? (.text kind) = none) {record : Value}
    (hrecord : plan.softDelete.isTrue = false ∨ kind ≠ AccessKind.view.name ∨ record = .null)
    (mode : Mode) (principal : StaticPrincipal) (strict : Value) :
    ∃ granted,
      (checkAccess mode (.holder principal.toHolder) p (.text kind) record strict).outcome =
        .ok granted ∧
      (granted = true ↔ ∃ d, p.declares (.text d) = true ∧
        (d = kind ∨ Relation.TransGen plan.Lists.Grants d kind) ∧
        principal.holds (plan.entityType.plain ++ separator ++ d) = true) := by
  obtain ⟨registry, h⟩ := built_of_build hbuild
  have hresolve := resolveAccess_outcome hkind (askHook_outcome h hhook hrecord) strict
  exact checkAccess_of_resolved h htexts hkind hresolve mode principal

/-- Notes that can be viewed by whoever edits them, declared from the viewed end. -/
def notePlan : Plan where
  entityType := .text "Note"
  includeDefaults := .bool false
  credentials := .list
    [(Credential.ofNames "edit" none none [] [] [] []).toValue,
      (Credential.ofNames "view" none none [] ["edit"] [] []).toValue]

/-- Who may edit notes and was told nothing about viewing them. -/
def noteEditor : StaticPrincipal :=
  ⟨.list [.text "Note___edit"], .null, [.text "Note___edit"]⟩

theorem checkAccess_note_view : ∃ p, (build notePlan).outcome = .ok p ∧
    (checkAccess .direct (.holder noteEditor.toHolder) p (.text "view") .null .null).outcome =
      .ok true := by
  have hbuilt : ((build notePlan).outcome.toOption.any fun p =>
      p.declares (.text "view") && p.declares (.text "edit")) = true := by decide +kernel
  have htexts : notePlan.Texts := by
    show ∀ c ∈ [Credential.ofNames "edit" none none [] [] [] [],
      Credential.ofNames "view" none none [] ["edit"] [] []], c.Texts
    simp [Credential.texts_ofNames]
  cases hp : (build notePlan).outcome with
  | error e =>
    rw [hp] at hbuilt
    cases hbuilt
  | ok p =>
    rw [hp] at hbuilt
    obtain ⟨hview, hedit⟩ := (Bool.and_eq_true _ _).mp hbuilt
    obtain ⟨granted, hgranted, hiff⟩ := checkAccess_iff_path hp htexts hview rfl
      (.inl rfl) .direct noteEditor .null
    have hpath : granted = true := by
      refine hiff.mpr ⟨"edit", hedit, .inr (.single (.inr (.inr (.inl ?_)))), by decide +kernel⟩
      exact ⟨_, .tail _ (.head _), rfl, _, rfl, _, .head _, rfl⟩
    exact ⟨p, rfl, hpath ▸ hgranted⟩

end Policy

end Clearance
