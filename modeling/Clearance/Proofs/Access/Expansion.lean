import Clearance.Proofs.Access.Grants
import Clearance.Proofs.Credential.Name
import Clearance.Proofs.Expansion

/-! Asking a policy in two ways.

What a holder may do can be asked of the policy, which expands the held names, or of a
principal, which is asked for the names that satisfy a kind. The first walks along the
relations and the second against them, and between them stands the formatting of names.
`checkAccess_iff_mem_expand` says that both ways lead to the same answer. -/
namespace Clearance

namespace Policy

variable {plan : Plan} {p : Policy} {registry : Registry}

/-! ## Formatted names -/

/-- The text that a text is formatted to: with the entity type in front when it is declared, and
else itself. -/
def formatText (p : Policy) (s : String) : String :=
  if p.declares (.text s) then Name.join p.entityType.plain s else s

theorem format_text (s : String) : p.format (.text s) = .text (p.formatText s) := by
  unfold format Name.format formatText
  split <;> rfl

theorem mem_map_word_formatAll {names : List Value} (h : ∀ v ∈ names, v.IsName) {s : String} :
    s ∈ (p.formatAll names).map Value.word ↔ ∃ v ∈ names, (p.format v).word = s := by
  rw [formatAll, Value.mem_map_word_distinct (List.forall_mem_map.mpr fun v hv =>
    isName_format (h v hv)), List.map_map, List.mem_map]
  rfl

/-- Formatting the members of a value always answers when they are names. -/
theorem formatMembers_eq_ok {v : Value} {names : List Value} (hnames : v.members? = some names)
    (h : ∀ w ∈ names, w.IsName) : p.formatMembers v = .ok (p.formatAll names) := by
  have heach : names.mapM (Name.formatBy p.entityType fun n => .ok (p.declares n)) =
      .ok (names.map p.format) := by
    rw [mapM_eq_ok_iff, List.forall₂_map_right_iff, List.forall₂_same]
    intro w hw
    rw [Name.formatBy, (h w hw).text?]
    rfl
  unfold formatMembers Name.formatAllBy
  rw [hnames]
  exact bind_eq_ok_iff.mpr ⟨names, rfl, bind_eq_ok_iff.mpr ⟨_, heach, rfl⟩⟩

/-- A bare name is formatted to that of a declared credential only if it is its name. -/
theorem word_format_eq_join_iff {s d : String} (hs : ¬ Name.Separated s) :
    (p.format (.text s)).word = Name.join p.entityType.plain d ↔
      p.declares (.text s) = true ∧ s = d := by
  rw [format_text, Value.word_text, formatText]
  split
  · rename_i hdeclared
    rw [Name.join_right_inj]
    simp [hdeclared]
  · rename_i hglobal
    constructor
    · rintro rfl
      exact absurd (Name.separated_join _ _) hs
    · exact fun h => absurd h.1 hglobal

/-- A bare name that nobody declares is formatted from itself alone. -/
theorem word_format_eq_iff_of_global {s k : String} (hk : ¬ Name.Separated k)
    (hglobal : p.declares (.text k) = false) : (p.format (.text s)).word = k ↔ s = k := by
  rw [format_text, Value.word_text, formatText]
  split
  · rename_i hdeclared
    constructor
    · rintro rfl
      exact absurd (Name.separated_join _ _) hk
    · rintro rfl
      rw [hglobal] at hdeclared
      cases hdeclared
  · rfl

/-! ## What is asked for -/

/-- A name that nobody declares is satisfied by itself alone. -/
theorem expandRequirement_of_global {k : String} (hglobal : p.declares (.text k) = false) :
    (p.expandRequirement (.text k)).map Value.word = [k] := by
  have hfind : p.find? (.text k) = none := by
    rw [declares, Option.isSome_eq_false_iff, Option.isNone_iff_eq_none] at hglobal
    exact hglobal
  rw [expandRequirement_of_find?_none hfind]
  rfl

/-! ## Both ways -/

/-- What held names expand to: themselves, and everything that a path leads to from a
declared one of them. -/
theorem Built.expand_outcome (h : Built plan p registry) {held : Value} {items : List Value}
    (hheld : held.members? = some items) (hitems : ∀ v ∈ items, v.IsName) :
    ∃ expanded, p.expand held = .ok expanded ∧ (∀ v ∈ expanded, v.IsName) ∧
      Ascending.Strict (expanded.map Value.word) ∧
      ∀ s, s ∈ expanded.map Value.word ↔ ∃ a ∈ items.map Value.word, a = s ∨
        (p.declares (.text a) = true ∧ Relation.TransGen plan.Lists.Grants a s) := by
  obtain ⟨expanded, hexpand, hexpanded, hstrict, hwords⟩ :=
    expandHeld_of_leads (fun c hc => h.isName hc)
      (fun c hc _ => h.links_iff_path hc (r := .implies))
      (fun c hc => h.closes.names c hc .implies) hheld hitems
  refine ⟨expanded, hexpand, hexpanded, hstrict, fun s => ?_⟩
  simp only [hwords, declares_text_iff h]
  rfl

/-- Whoever holds the formatted names of some bare ones satisfies a bare kind exactly
when a path leads to it from one of them. -/
theorem holdsAny_expandRequirement_iff (h : Built plan p registry) (htexts : plan.Texts)
    {held : List String} {kind : String} (hheld : ∀ s ∈ held, ¬ Name.Separated s)
    (hkind : ¬ Name.Separated kind) {principal : StaticPrincipal}
    (hholds : ∀ s, principal.holds s = true ↔
      s ∈ (p.formatAll (held.map .text)).map Value.word) :
    principal.holdsAny (p.expandRequirement (.text kind)) = true ↔ ∃ a ∈ held, a = kind ∨
      (p.declares (.text a) = true ∧ Relation.TransGen plan.Lists.Grants a kind) := by
  have hheldNames : ∀ v ∈ held.map Value.text, v.IsName :=
    List.forall_mem_map.mpr fun s _ => Value.isName_text s
  have hformatted : ∀ s, principal.holds s = true ↔ ∃ a ∈ held, (p.format (.text a)).word = s := by
    intro s
    rw [hholds, mem_map_word_formatAll hheldNames]
    simp only [List.mem_map, exists_exists_and_eq_and]
  rw [principal.holdsAny_iff (isName_of_mem_expandRequirement h.listsNames (Value.isName_text _))]
  simp only [hformatted]
  cases hdeclared : p.declares (.text kind) with
  | true =>
    -- every name that satisfies a declared kind is formatted, so it is held if it was bare
    constructor
    · rintro ⟨s, hs, a, ha, heq⟩
      obtain ⟨d, -, hd, rfl⟩ := (expandRequirement_words h htexts hdeclared).mp hs
      obtain ⟨hadeclared, rfl⟩ := (word_format_eq_join_iff (hheld a ha)).mp heq
      exact ⟨a, ha, hd.imp_right fun hpath => ⟨hadeclared, hpath⟩⟩
    · rintro ⟨a, ha, hor⟩
      have hadeclared : p.declares (.text a) = true := by
        rcases hor with rfl | ⟨hadeclared, -⟩
        · exact hdeclared
        · exact hadeclared
      refine ⟨_, ?_, a, ha, (word_format_eq_join_iff (hheld a ha)).mpr ⟨hadeclared, rfl⟩⟩
      exact (expandRequirement_words h htexts hdeclared).mpr
        ⟨a, hadeclared, hor.imp_right And.right, rfl⟩
  | false =>
    -- no path leads to a name that nobody declares
    rw [expandRequirement_of_global hdeclared]
    simp only [List.mem_singleton, exists_eq_left, word_format_eq_iff_of_global hkind hdeclared]
    refine exists_congr fun a => and_congr_right fun _ => ?_
    refine ⟨.inl, fun hor => hor.resolve_right ?_⟩
    rintro ⟨-, hpath⟩
    have hfound := declares_of_path h (r := .implies) hpath
    rw [hdeclared] at hfound
    cases hfound

/-- **Two ways of asking agree.** For bare names, declared or not, and a bare kind that no
hook answers for: whoever holds the formatted names is granted the kind, without
strictness, exactly when the held names expand to it. -/
theorem checkAccess_iff_mem_expand (hbuild : (build plan).outcome = .ok p) (htexts : plan.Texts)
    {held : List String} {kind : String} (hheld : ∀ s ∈ held, ¬ Name.Separated s)
    (hkind : ¬ Name.Separated kind) {record strict : Value}
    (hask : (p.askHook (.text kind) record).outcome = .ok none)
    (hstrict : p.isStrict strict = false) (mode : Mode) (principalId : Value) :
    ∃ formatted principal expanded granted,
      p.formatMembers (.ofNames held) = .ok formatted ∧
      StaticPrincipal.ofValue? (.tuple formatted) principalId = some principal ∧
      p.expand (.ofNames held) = .ok expanded ∧
      (checkAccess mode (.holder principal.toHolder) p (.text kind) record strict).outcome =
        .ok granted ∧
      (granted = true ↔ Value.memberOf (.text kind) expanded = true) := by
  obtain ⟨registry, h⟩ := built_of_build hbuild
  have hmembers : (Value.ofNames held).members? = some (held.map .text) := rfl
  have hnames : ∀ v ∈ held.map Value.text, v.IsName :=
    List.forall_mem_map.mpr fun s _ => Value.isName_text s
  have hformatted := isName_of_mem_formatAll (p := p) hnames
  obtain ⟨principal, hprincipal, hholds⟩ :=
    StaticPrincipal.exists_ofValue? (Value.members?_tuple _) hformatted principalId
  obtain ⟨expanded, hexpand, hexpanded, -, hwords⟩ := h.expand_outcome hmembers hnames
  have hresolve := resolveAccess_outcome_of_lenient (Value.isName_text kind) hask hstrict
  refine ⟨_, principal, expanded, _, formatMembers_eq_ok hmembers hnames, hprincipal, hexpand,
    by rw [checkAccess_outcome h.listsNames, hresolve]; rfl, ?_⟩
  rw [holdsAny_expandRequirement_iff h htexts hheld hkind hholds,
    Value.memberOf_iff (Value.isName_text _), Value.word_text, ← Value.mem_map_word hexpanded,
    hwords]
  simp only [List.mem_map, exists_exists_and_eq_and, Value.word_text]

/-- Whoever edits notes, and audits whatever there is, is granted viewing in both ways. -/
theorem checkAccess_expand_note : ∃ p formatted principal expanded,
    (build notePlan).outcome = .ok p ∧
    p.formatMembers (.ofNames ["edit", "audit"]) = .ok formatted ∧
    StaticPrincipal.ofValue? (.tuple formatted) .null = some principal ∧
    p.expand (.ofNames ["edit", "audit"]) = .ok expanded ∧
    (checkAccess .direct (.holder principal.toHolder) p (.text "view") .null .null).outcome =
      .ok true ∧
    Value.memberOf (.text "view") expanded = true := by
  have hbuilt : ((build notePlan).outcome.toOption.any fun p =>
      !p.isStrict .null &&
        (p.formatMembers (.ofNames ["edit", "audit"])).toOption.any fun formatted =>
          (StaticPrincipal.ofValue? (.tuple formatted) .null).any fun principal =>
            (checkAccess .direct (.holder principal.toHolder) p (.text "view") .null
              .null).outcome.toOption == some true) = true := by decide +kernel
  have htexts : notePlan.Texts := by
    show ∀ c ∈ [Credential.ofNames "edit" none none [] [] [] [],
      Credential.ofNames "view" none none [] ["edit"] [] []], c.Texts
    simp [Credential.texts_ofNames]
  obtain ⟨p, hp, htest⟩ := exists_ok_of_any hbuilt
  obtain ⟨hlenient, hview⟩ := (Bool.and_eq_true _ _).mp htest
  obtain ⟨registry, h⟩ := built_of_build hp
  have hask : (p.askHook (.text "view") .null).outcome = .ok none :=
    askHook_outcome h rfl (.inl rfl)
  have hheld : ∀ s ∈ ["edit", "audit"], ¬ Name.Separated s := by decide
  obtain ⟨formatted, principal, expanded, granted, hformatted, hprincipal, hexpand, hgranted,
    hiff⟩ := checkAccess_iff_mem_expand hp htexts hheld (by decide) hask
      (by simpa using hlenient) .direct .null
  rw [hformatted, Except.toOption, Option.any_some, hprincipal, Option.any_some, hgranted,
    beq_iff_eq, Except.toOption, Option.some.injEq] at hview
  exact ⟨p, formatted, principal, expanded, hp, hformatted, hprincipal, hexpand,
    hview ▸ hgranted, hiff.mp hview⟩

end Policy

end Clearance
