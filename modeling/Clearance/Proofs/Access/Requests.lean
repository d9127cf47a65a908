import Clearance.Access
import Clearance.Proofs.Policy.Build
import Clearance.Proofs.Principal.Formula

/-! What a principal with a fixed set of credentials answers.

A check sends one request: a list of names, any of which grants, or a list of such
lists, each of which has to be satisfied. The combinator flips from one level to the
next, so that both decode to what a check means (`hasCredential_names`,
`hasCredential_groups`). -/
namespace Clearance

namespace Request

variable {held : String → Bool}

/-- A list of names stands for a disjunction, or a conjunction, of them. -/
theorem formula?_names (useAnd : Bool) {names : List Value} (h : ∀ v ∈ names, v.IsName) :
    formula? useAnd (ofValue (.list names)) =
      some (.joined useAnd (names.map fun v => .held v.word)) := by
  have hname : ∀ v ∈ names, formula? (!useAnd) (ofValue (id v)) = some (.held v.word) := by
    intro v hv
    rcases Value.isName_cases (h v hv) with ⟨s, rfl⟩ | ⟨l, rfl⟩ <;> rfl
  have hparts := formulas?_map hname
  rw [List.map_id] at hparts
  exact Option.map_eq_some_iff.mpr ⟨_, hparts, rfl⟩

theorem eval_names (names : List Value) :
    (Formula.joined false (names.map fun v => .held v.word)).eval held =
      names.any (held ·.word) := by
  simp [Formula.joined, Formula.eval_any, Formula.eval, Function.comp_def]

theorem satisfiedBy_names {names : List Value} (h : ∀ v ∈ names, v.IsName) :
    satisfiedBy held false (ofValue (.list names)) = .ok (names.any (held ·.word)) := by
  rw [satisfiedBy_of_formula? (formula?_names false h), eval_names]

/-- Groups of names in a conjunction: every group has to have a member that is held. -/
theorem satisfiedBy_groups {groups : List (List Value)}
    (h : ∀ names ∈ groups, ∀ v ∈ names, v.IsName) :
    satisfiedBy held true (ofValue (.list (groups.map .list))) =
      .ok (groups.all fun names => names.any (held ·.word)) := by
  have hparts := formulas?_map fun names hnames => formula?_names false (h names hnames)
  have hgroups : formula? true (ofValue (.list (groups.map .list))) = some (.joined true
      (groups.map fun names => .joined false (names.map fun v => .held v.word))) :=
    Option.map_eq_some_iff.mpr ⟨_, hparts, rfl⟩
  rw [satisfiedBy_of_formula? hgroups, Formula.joined, if_pos rfl, Formula.eval_all, List.all_map]
  simp only [Function.comp_def, eval_names]

end Request

namespace StaticPrincipal

/-- A name is held when an equal value is. -/
theorem holds_word (p : StaticPrincipal) {v : Value} (hv : v.IsName) :
    p.holds v.word = Value.memberOf v p.held := by
  rw [Bool.eq_iff_iff, holds, Value.memberOf_iff hv, Value.memberOf_iff (Value.isName_text _),
    Value.word_text]

/-- Some of the names are held. -/
def holdsAny (p : StaticPrincipal) (names : List Value) : Bool :=
  names.any fun v => Value.memberOf v p.held

theorem any_holds_word (p : StaticPrincipal) {names : List Value} (h : ∀ v ∈ names, v.IsName) :
    (names.any fun v => p.holds v.word) = p.holdsAny names := by
  unfold holdsAny
  rw [Bool.eq_iff_iff, List.any_eq_true, List.any_eq_true]
  refine exists_congr fun v => and_congr_right fun hv => ?_
  rw [p.holds_word (h v hv)]

/-- Some of the names are held when one of their texts is. -/
theorem holdsAny_iff (p : StaticPrincipal) {names : List Value} (h : ∀ v ∈ names, v.IsName) :
    p.holdsAny names = true ↔ ∃ s ∈ names.map Value.word, p.holds s = true := by
  rw [← p.any_holds_word h, List.any_eq_true]
  simp only [List.mem_map, exists_exists_and_eq_and]

/-- A principal made from names holds their texts and no others. -/
theorem exists_ofValue? {credentials : Value} {names : List Value}
    (hnames : credentials.members? = some names) (h : ∀ v ∈ names, v.IsName)
    (principalId : Value) :
    ∃ p, ofValue? credentials principalId = some p ∧
      ∀ s, p.holds s = true ↔ s ∈ names.map Value.word := by
  refine ⟨⟨credentials, principalId, Value.distinct names⟩, ?_, ?_⟩
  · simp [ofValue?, Value.distinctMembers?, hnames, Value.allHashable_of_names h]
  · intro s
    rw [holds, Value.memberOf_iff (Value.isName_text s), Value.word_text,
      ← Value.mem_map_word (Value.isName_of_mem_distinct h), Value.mem_map_word_distinct h]

theorem hasCredential_names (p : StaticPrincipal) {names : List Value}
    (h : ∀ v ∈ names, v.IsName) :
    p.hasCredential (.list names) false = .ok (p.holdsAny names) := by
  rw [hasCredential, Request.satisfiedBy_names h, ← p.any_holds_word h]

theorem hasCredential_groups (p : StaticPrincipal) {groups : List (List Value)}
    (h : ∀ names ∈ groups, ∀ v ∈ names, v.IsName) :
    p.hasCredential (.list (groups.map .list)) true = .ok (groups.all p.holdsAny) := by
  refine (Request.satisfiedBy_groups h).trans (congrArg Except.ok ?_)
  rw [Bool.eq_iff_iff, List.all_eq_true, List.all_eq_true]
  refine forall₂_congr fun names hmem => ?_
  rw [p.any_holds_word (h names hmem)]

/-- Nobody holds anything of nothing. -/
theorem holdsAny_of_held_nil {p : StaticPrincipal} (h : p.held = []) (names : List Value) :
    p.holdsAny names = false := by
  simp [holdsAny, Value.memberOf, h]

end StaticPrincipal

namespace Policy

variable {p : Policy}

/-! ## The names of a request -/

theorem isName_format {name : Value} (h : name.IsName) : (p.format name).IsName := by
  unfold format Name.format
  split
  · exact Value.isName_text _
  · exact h

theorem isName_of_mem_formatAll {names : List Value} (h : ∀ v ∈ names, v.IsName) :
    ∀ v ∈ p.formatAll names, v.IsName := by
  refine Value.isName_of_mem_distinct ?_
  simp only [List.forall_mem_map]
  exact fun v hv => isName_format (h v hv)

/-- Every name that is listed in a policy is one. -/
def ListsNames (p : Policy) : Prop :=
  ∀ c ∈ p.credentials, ∀ r, ∀ v ∈ c.links.get r, v.IsName

theorem isName_of_mem_expandRequirement (hp : p.ListsNames) {name : Value} (h : name.IsName) :
    ∀ v ∈ p.expandRequirement name, v.IsName := by
  unfold expandRequirement
  split
  · rename_i c hfind
    have hc : c ∈ p.credentials := List.mem_of_find?_eq_some hfind
    exact isName_of_mem_formatAll (List.forall_mem_cons.mpr ⟨h, hp c hc .impliedBy⟩)
  · exact isName_of_mem_formatAll (List.forall_mem_cons.mpr ⟨h, by simp⟩)

/-- Resolving an access kind ends in names. -/
theorem isName_of_resolveAccess (hp : p.ListsNames) {kind record strict : Value}
    {names : List Value} (h : (p.resolveAccess kind record strict).outcome = .ok names) :
    ∀ v ∈ names, v.IsName := by
  unfold resolveAccess at h
  obtain ⟨credential, -, h⟩ := Run.andThen_outcome_ok.mp h
  obtain ⟨expanded, hexpand, h⟩ := Run.andThen_outcome_ok.mp h
  obtain ⟨_, -, h⟩ := Run.andThen_outcome_ok.mp h
  cases h
  unfold expandValue at hexpand
  obtain ⟨_, -, hexpand⟩ := bind_eq_ok_iff.mp hexpand
  split at hexpand
  · rename_i hname
    cases hexpand
    exact isName_of_mem_expandRequirement hp hname
  · obtain ⟨_, -, hexpand⟩ := bind_eq_ok_iff.mp hexpand
    cases hexpand

/-! ## The outcome of an access check -/

/-- **An access check of a fixed set of credentials.** It fails as resolving does,
and else grants exactly when one of the resolved names is held. -/
theorem checkAccess_outcome (hp : p.ListsNames) (mode : Mode) (principal : StaticPrincipal)
    (kind record strict : Value) :
    (checkAccess mode (.holder principal.toHolder) p kind record strict).outcome =
      (p.resolveAccess kind record strict).outcome.map principal.holdsAny := by
  cases hres : (p.resolveAccess kind record strict).outcome with
  | error e =>
    cases mode <;> simp [checkAccess, hasAccess, hasAccessAwaited, Principal.require,
      Run.outcome_andThen_of_error hres, Except.map]
  | ok names =>
    -- the answer is there at once, so that it does not matter whether it is awaited
    have hholds := principal.hasCredential_names (isName_of_resolveAccess hp hres)
    cases mode <;> simp [checkAccess, hasAccess, hasAccessAwaited, Principal.require,
      Run.outcome_andThen_of_ok hres, StaticPrincipal.toHolder, hholds, Answer.atOnce,
      Answer.awaited, decided, Value.isTrue, Except.map]

theorem Built.listsNames {plan : Plan} {registry : Registry} (h : Built plan p registry) :
    p.ListsNames :=
  h.closes.names

end Policy

end Clearance
