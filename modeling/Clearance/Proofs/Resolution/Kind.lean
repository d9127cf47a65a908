import Clearance.Proofs.Access.Requests
import Clearance.Proofs.Policy.Acceptance

/-! How an access kind is resolved.

A hook is asked first. What it names stands for the kind, declared or not and however
strict the resolution is; where nobody answers the kind stands for itself, unless it is
unknown and resolution is strict. What stands for a kind is then resolved to the formatted
names that satisfy it (`resolveAccess_precedence`). -/
namespace Clearance.Policy

variable {α : Type} {plan : Plan} {p : Policy} {registry : Registry} {kind record : Value}

/-! ## The hook -/

/-- A hook answers a kind when it is there and does not decline. -/
def Answered (p : Policy) (kind record : Value) (hook : Hook) (answer : Value) : Prop :=
  p.hooks.accessHook? kind = some hook ∧ (hook.call [record]).outcome = .ok answer ∧
    answer ≠ .declined

/-- Nobody answers a kind when there is no hook for it, or when the hook declines. -/
def Unanswered (p : Policy) (kind record : Value) : Prop :=
  ∀ hook, p.hooks.accessHook? kind = some hook → (hook.call [record]).outcome = .ok .declined

theorem findAccess_of_isName (hkind : kind.IsName) (t : HookTable) :
    t.findAccess kind = .ok (t.accessHook? kind) := by
  rw [HookTable.findAccess, asKey, if_pos (Value.hashable_of_isName hkind)]
  rfl

theorem askHook_of_hook (hkind : kind.IsName) {hook : Hook}
    (hhook : p.hooks.accessHook? kind = some hook) :
    p.askHook kind record = (hook.call [record]).andThen fun answer =>
      match answer with
      | .declined => Run.answer none
      | answer =>
        if answer.text?.isSome then Run.answer (some answer)
        else Run.reject (p.wrongAnswer hook kind .null answer) := by
  unfold askHook
  rw [findAccess_of_isName hkind, hhook]
  rfl

theorem askHook_of_error (hkind : kind.IsName) {hook : Hook}
    (hhook : p.hooks.accessHook? kind = some hook) {e : Failure}
    (hcall : (hook.call [record]).outcome = .error e) :
    (p.askHook kind record).outcome = .error e := by
  rw [askHook_of_hook hkind hhook]
  exact Run.outcome_andThen_of_error hcall _

theorem askHook_of_name (hkind : kind.IsName) {hook : Hook} {c : Value}
    (h : p.Answered kind record hook c) (hc : c.IsName) :
    (p.askHook kind record).outcome = .ok (some c) := by
  obtain ⟨hhook, hcall, -⟩ := h
  rw [askHook_of_hook hkind hhook, Run.outcome_andThen_of_ok hcall]
  rcases Value.isName_cases hc with ⟨s, rfl⟩ | ⟨l, rfl⟩ <;> rfl

theorem askHook_of_not_name (hkind : kind.IsName) {hook : Hook} {answer : Value}
    (h : p.Answered kind record hook answer) (hanswer : ¬ answer.IsName) :
    (p.askHook kind record).outcome = refuse (p.wrongAnswer hook kind .null answer) := by
  obtain ⟨hhook, hcall, hdeclined⟩ := h
  rw [askHook_of_hook hkind hhook, Run.outcome_andThen_of_ok hcall]
  split
  · exact absurd rfl hdeclined
  · have htext : ¬ answer.text?.isSome = true := hanswer
    rw [if_neg htext]
    rfl

theorem askHook_of_unanswered (hkind : kind.IsName) (h : p.Unanswered kind record) :
    (p.askHook kind record).outcome = .ok none := by
  cases hhook : p.hooks.accessHook? kind with
  | none =>
    unfold askHook
    rw [findAccess_of_isName hkind, hhook]
    rfl
  | some hook =>
    rw [askHook_of_hook hkind hhook, Run.outcome_andThen_of_ok (h hook hhook)]
    rfl

/-! ## What stands for a kind -/

/-- The credential that stands for a kind is resolved to the names that satisfy it. -/
theorem resolveAccess_of_requested {strict credential : Value} (hname : credential.IsName)
    (h : (p.requestedCredential kind record (p.isStrict strict)).outcome = .ok credential) :
    (p.resolveAccess kind record strict).outcome = .ok (p.expandRequirement credential) := by
  have hexpand : p.expandValue credential = .ok (p.expandRequirement credential) := by
    simp [expandValue, asKey, Value.hashable_of_isName hname, hname.text?, bind, Except.bind,
      pure, Except.pure]
  unfold resolveAccess
  rw [Run.bind_eq, Run.outcome_andThen_of_ok h, hexpand]
  rfl

theorem resolveAccess_of_askHook_error {e : Failure}
    (hask : (p.askHook kind record).outcome = .error e) (strict : Value) :
    (p.resolveAccess kind record strict).outcome = .error e := by
  unfold resolveAccess requestedCredential
  exact Run.outcome_andThen_of_error (Run.outcome_andThen_of_error hask _) _

/-- What a hook names is resolved in place of the kind, whatever the strictness. -/
theorem resolveAccess_of_askHook_some {c : Value} (hc : c.IsName)
    (hask : (p.askHook kind record).outcome = .ok (some c)) (strict : Value) :
    (p.resolveAccess kind record strict).outcome = .ok (p.expandRequirement c) := by
  refine resolveAccess_of_requested hc ?_
  unfold requestedCredential
  rw [Run.bind_eq, Run.outcome_andThen_of_ok hask]
  rfl

/-- A kind that nobody answers stands for itself, unless it is unknown and resolution
is strict. -/
theorem resolveAccess_of_askHook_none (hkind : kind.IsName)
    (hask : (p.askHook kind record).outcome = .ok none) (strict : Value) :
    (p.resolveAccess kind record strict).outcome =
      if p.isStrict strict && !p.declares kind then refuse (.unknownKind p.entityType kind)
      else .ok (p.expandRequirement kind) := by
  have hhas : p.hasCredential kind = .ok (p.declares kind) := by
    rw [hasCredential, asKey, if_pos (Value.hashable_of_isName hkind)]
    rfl
  have hrequested : (p.requestedCredential kind record (p.isStrict strict)).outcome =
      if p.isStrict strict && !p.declares kind then refuse (.unknownKind p.entityType kind)
      else .ok kind := by
    unfold requestedCredential
    rw [Run.bind_eq, Run.outcome_andThen_of_ok hask, hhas]
    cases p.isStrict strict <;> cases p.declares kind <;> rfl
  split
  · rename_i hrefused
    rw [if_pos hrefused] at hrequested
    unfold resolveAccess
    rw [Run.bind_eq, Run.outcome_andThen, hrequested, refuse_bind]
  · rename_i hpassed
    rw [if_neg hpassed] at hrequested
    exact resolveAccess_of_requested hkind hrequested

/-! ## The names that satisfy a credential -/

/-- The names that satisfy a declared credential: its own formatted name in front, then
those of the other credentials that imply it, in ascending order, each of them once. -/
structure Satisfiers (p : Policy) (c : Value) (implying names : List Value) : Prop where
  ascending : Ascending.Strict (implying.map Value.word)
  listed : ∃ others, others.Sublist implying ∧
    names = (c :: others).map fun d => .text (Name.join p.entityType.plain d.plain)
  complete : ∀ d ∈ implying, .text (Name.join p.entityType.plain d.plain) ∈ names
  once : (names.map Value.word).Nodup

theorem format_of_declares {d : Value} (h : p.declares d = true) :
    p.format d = .text (Name.join p.entityType.plain d.plain) := by
  rw [format, Name.format, if_pos h]

/-- Whatever implies a compiled credential is declared. -/
theorem declares_of_mem_impliedBy (h : Built plan p registry) {c : Capability}
    (hc : c ∈ p.credentials) {d : Value} (hd : d ∈ c.links.impliedBy) : p.declares d = true := by
  have hname : d.IsName := h.closes.names c hc .impliedBy d hd
  have hword := declares_of_mem_links h hc (r := .impliedBy) hd
  rw [declares_iff (Value.isName_text _), Value.word_text] at hword
  exact (declares_iff hname).mpr hword

theorem satisfiers_expandRequirement (h : Built plan p registry) {name : Value} {c : Capability}
    (hname : name.IsName) (hfind : p.find? name = some c) :
    p.Satisfiers name c.links.impliedBy (p.expandRequirement name) := by
  obtain ⟨hc, -⟩ := find?_eq_some hname hfind
  have hdeclared : p.declares name = true := Option.isSome_iff_exists.mpr ⟨c, hfind⟩
  have hnames : ∀ v ∈ name :: c.links.impliedBy, v.IsName :=
    List.forall_mem_cons.mpr ⟨hname, h.closes.names c hc .impliedBy⟩
  have hformat : ∀ v ∈ name :: c.links.impliedBy,
      p.format v = .text (Name.join p.entityType.plain v.plain) :=
    List.forall_mem_cons.mpr ⟨format_of_declares hdeclared,
      fun d hd => format_of_declares (declares_of_mem_impliedBy h hc hd)⟩
  have hformatted : ∀ v ∈ (name :: c.links.impliedBy).map p.format, v.IsName :=
    List.forall_mem_map.mpr fun v hv => isName_format (hnames v hv)
  have hexpand : p.expandRequirement name =
      Value.distinct ((name :: c.links.impliedBy).map p.format) := by
    rw [expandRequirement, hfind]
    rfl
  -- the first name is kept, and what follows it is a part of the rest
  have hfront : ∃ others, others.Sublist c.links.impliedBy ∧
      p.expandRequirement name = (name :: others).map p.format := by
    have hrest := Value.distinctFrom_sublist [p.format name] (c.links.impliedBy.map p.format)
    obtain ⟨others, hothers, heq⟩ := List.sublist_map_iff.mp hrest
    refine ⟨others, hothers, ?_⟩
    rw [hexpand, List.map_cons, List.map_cons, ← heq]
    rfl
  obtain ⟨others, hothers, heq⟩ := hfront
  have hlisted : p.expandRequirement name = (name :: others).map fun d =>
      .text (Name.join p.entityType.plain d.plain) := by
    rw [heq]
    exact List.map_congr_left fun v hv => hformat v (hothers.cons_cons name |>.subset hv)
  refine ⟨h.closes.strict c hc .impliedBy, ⟨others, hothers, hlisted⟩, ?_, ?_⟩
  · intro d hd
    have hword : Name.join p.entityType.plain d.plain ∈
        (p.expandRequirement name).map Value.word := by
      rw [hexpand, Value.mem_map_word_distinct hformatted]
      have hmem := List.mem_map_of_mem (f := p.format) (List.mem_cons_of_mem name hd)
      rw [hformat d (List.mem_cons_of_mem name hd)] at hmem
      exact List.mem_map_of_mem hmem
    obtain ⟨v, hv, hvword⟩ := List.mem_map.mp hword
    obtain ⟨e, -, rfl⟩ := List.mem_map.mp (hlisted ▸ hv)
    rwa [← hvword]
  · rw [hexpand]
    exact Value.nodup_map_word_distinct hformatted

/-- A name that nobody declares is satisfied by itself alone. -/
theorem expandRequirement_of_find?_none {c : Value} (h : p.find? c = none) :
    p.expandRequirement c = [c] := by
  have hglobal : p.declares c = false := by
    rw [declares, h]
    rfl
  simp [expandRequirement, h, formatAll, format, Name.format, hglobal, Value.distinct,
    Value.distinctFrom, Value.memberOf]

/-- Something always satisfies a name: its own formatted name stands in front. -/
theorem expandRequirement_ne_nil (c : Value) : p.expandRequirement c ≠ [] := by
  have hfront : ∀ names, p.formatAll (c :: names) ≠ [] := fun names => List.cons_ne_nil _ _
  unfold expandRequirement
  split
  · exact hfront _
  · exact hfront _

/-! ## All cases -/

theorem isName_of_askHook {c : Value} (h : (p.askHook kind record).outcome = .ok (some c)) :
    c.IsName := by
  unfold askHook at h
  obtain ⟨hook, -, h⟩ := Run.andThen_outcome_ok.mp h
  cases hook with
  | none => cases h
  | some hook =>
    obtain ⟨answer, -, h⟩ := Run.andThen_outcome_ok.mp h
    split at h
    · cases h
    · split at h
      · rename_i hname
        cases h
        exact hname
      · exact absurd h refuse_ne_ok

/-- Strictness refuses some kinds, and changes nothing for all others. -/
theorem resolveAccess_of_lenient (hkind : kind.IsName) {strict strict' : Value}
    {names : List Value} (h : (p.resolveAccess kind record strict).outcome = .ok names)
    (hlenient : p.isStrict strict' = false) :
    (p.resolveAccess kind record strict').outcome = .ok names ∧ names ≠ [] := by
  cases hask : (p.askHook kind record).outcome with
  | error e =>
    rw [resolveAccess_of_askHook_error hask] at h
    cases h
  | ok answered =>
    cases answered with
    | some c =>
      have hc := isName_of_askHook hask
      rw [resolveAccess_of_askHook_some hc hask] at h ⊢
      cases h
      exact ⟨rfl, expandRequirement_ne_nil c⟩
    | none =>
      rw [resolveAccess_of_askHook_none hkind hask] at h ⊢
      split at h
      · exact absurd h refuse_ne_ok
      · cases h
        rw [hlenient]
        exact ⟨rfl, expandRequirement_ne_nil kind⟩

/-- A wrong answer is refused in the name of the entity type, so that nothing but the answer
may be impossible to write out. -/
theorem refuse_wrongAnswer (hentity : p.entityType.IsName) (hook : Hook) {field : Value}
    (hkind : kind.IsName) (hfield : field.writable = true) (answer : Value) :
    (refuse (p.wrongAnswer hook kind field answer) : Except Failure α) =
      if answer.writable then .error (.rejected (p.wrongAnswer hook kind field answer))
      else .error .illFormed := by
  split
  · rename_i hanswer
    refine refuse_of_writable ?_
    simp [wrongAnswer, Rejection.written, hentity.writable, hkind.writable, hfield, hanswer]
  · rename_i hanswer
    exact refuse_of_unwritable (v := answer) (by simp [wrongAnswer, Rejection.written])
      (Bool.not_eq_true _ ▸ hanswer)

/-- Publishing a draft takes what viewing it takes. -/
def publishHook : Hook :=
  ⟨.named "publish_hook", fun _ => Run.answer (.text "view")⟩

/-- Drafts that whoever views them edits and the other way round, and that nothing else
can be done with but publishing. -/
def draftPlan : Plan where
  entityType := .text "Draft"
  includeDefaults := .bool false
  credentials := .list
    [(Credential.ofNames "view" none none [] ["edit"] [] []).toValue,
      (Credential.ofNames "edit" none none [] ["view"] [] []).toValue]
  hooks := some { HookTable.empty with access := [(.text "publish", publishHook)] }
  strict := .bool true

theorem accessHook?_draft (h : Built draftPlan p registry) (s : String) :
    p.hooks.accessHook? (.text s) = if s = "publish" then some publishHook else none := by
  rw [h.hooks]
  exact Entries.lookup_put_text []

/-- Viewing takes a number of more digits than can be written out. -/
def endlessHook : Hook :=
  ⟨.named "endless_hook", fun _ => Run.answer (.int (10 ^ Decimal.mostDigits))⟩

example : ((build { draftPlan with
    hooks := some { HookTable.empty with access := [(.text "view", endlessHook)] } }).outcome.map
      fun p => (p.resolveAccess (.text "view") .null .null).outcome matches .error .illFormed)
    matches .ok true := by decide +kernel

end Clearance.Policy
