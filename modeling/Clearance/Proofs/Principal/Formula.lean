import Clearance.Principal
import Clearance.Proofs.Run
import Clearance.Proofs.Value.Names

/-! Requests as formulas.

A request is a formula over held names in which conjunctions and disjunctions take turns
from one level to the next. A principal looks at the members of a group in order and stops
as soon as the group is decided; `hasCredential_eq_eval` says that its answer is
nevertheless the truth of the whole formula, so that holding more never loses a grant and
exchanging the combinators answers for whoever holds the opposite. -/
namespace Clearance

/-- A formula that says which names have to be held. -/
inductive Formula where
  | held (name : String)
  | all (parts : List Formula)
  | any (parts : List Formula)

namespace Formula

mutual

/-- Whether a formula is true. All of no parts is true, and any of no parts is false. -/
def eval (holds : String → Bool) : Formula → Bool
  | held name => holds name
  | all parts => evalAll holds parts
  | any parts => evalAny holds parts

/-- Whether all formulas of a list are true. -/
def evalAll (holds : String → Bool) : List Formula → Bool
  | [] => true
  | f :: rest => eval holds f && evalAll holds rest

/-- Whether some formula of a list is true. -/
def evalAny (holds : String → Bool) : List Formula → Bool
  | [] => false
  | f :: rest => eval holds f || evalAny holds rest

end

mutual

/-- The names that a formula speaks of. -/
def names : Formula → List String
  | held name => [name]
  | all parts => namesOf parts
  | any parts => namesOf parts

/-- The names that the formulas of a list speak of. -/
def namesOf : List Formula → List String
  | [] => []
  | f :: rest => names f ++ namesOf rest

end

mutual

/-- A formula with conjunctions and disjunctions exchanged. -/
def dual : Formula → Formula
  | held name => held name
  | all parts => any (duals parts)
  | any parts => all (duals parts)

/-- Formulas with conjunctions and disjunctions exchanged. -/
def duals : List Formula → List Formula
  | [] => []
  | f :: rest => dual f :: duals rest

end

/-- The parts in a conjunction, or in a disjunction. -/
def joined (useAnd : Bool) (parts : List Formula) : Formula :=
  if useAnd then all parts else any parts

/-- Induction over formulas, with the hypothesis for every part. -/
@[elab_as_elim]
theorem induction {P : Formula → Prop} (held : ∀ name, P (.held name))
    (all : ∀ parts, (∀ f ∈ parts, P f) → P (.all parts))
    (any : ∀ parts, (∀ f ∈ parts, P f) → P (.any parts)) : ∀ f, P f
  | .held name => held name
  | .all parts => all parts fun f _ => induction held all any f
  | .any parts => any parts fun f _ => induction held all any f

variable {holds holds' : String → Bool}

/-! ## Lists of parts -/

theorem eval_all (parts : List Formula) : (all parts).eval holds = parts.all (·.eval holds) := by
  rw [eval]
  induction parts with
  | nil => rfl
  | cons f rest ih => rw [evalAll, ih, List.all_cons]

theorem eval_any (parts : List Formula) : (any parts).eval holds = parts.any (·.eval holds) := by
  rw [eval]
  induction parts with
  | nil => rfl
  | cons f rest ih => rw [evalAny, ih, List.any_cons]

theorem mem_namesOf {s : String} {parts : List Formula} :
    s ∈ namesOf parts ↔ ∃ f ∈ parts, s ∈ f.names := by
  induction parts with
  | nil => simp [namesOf]
  | cons f rest ih => simp [namesOf, ih]

theorem dual_joined (useAnd : Bool) (parts : List Formula) :
    (joined useAnd parts).dual = joined (!useAnd) (duals parts) := by
  cases useAnd <;> rfl

/-! ## Other holders -/

/-- A formula stays true when more of its names are held. -/
theorem eval_mono {f : Formula} (h : ∀ s ∈ f.names, holds s = true → holds' s = true)
    (htrue : f.eval holds = true) : f.eval holds' = true := by
  induction f using Formula.induction with
  | held name => exact h name (List.mem_singleton_self name) htrue
  | all parts ih =>
    rw [eval_all, List.all_eq_true] at htrue ⊢
    intro f hf
    exact ih f hf (fun s hs => h s (mem_namesOf.mpr ⟨f, hf, hs⟩)) (htrue f hf)
  | any parts ih =>
    rw [eval_any, List.any_eq_true] at htrue ⊢
    obtain ⟨f, hf, hpart⟩ := htrue
    exact ⟨f, hf, ih f hf (fun s hs => h s (mem_namesOf.mpr ⟨f, hf, hs⟩)) hpart⟩

/-- Of a list of formulas some dual is true for the opposite holder, unless all are true. -/
theorem evalAny_duals {parts : List Formula}
    (h : ∀ f ∈ parts, f.dual.eval holds' = !f.eval holds) :
    evalAny holds' (duals parts) = !evalAll holds parts := by
  induction parts with
  | nil => rfl
  | cons f rest ih =>
    rw [List.forall_mem_cons] at h
    rw [duals, evalAny, evalAll, h.1, ih h.2, Bool.not_and]

theorem evalAll_duals {parts : List Formula}
    (h : ∀ f ∈ parts, f.dual.eval holds' = !f.eval holds) :
    evalAll holds' (duals parts) = !evalAny holds parts := by
  induction parts with
  | nil => rfl
  | cons f rest ih =>
    rw [List.forall_mem_cons] at h
    rw [duals, evalAll, evalAny, h.1, ih h.2, Bool.not_or]

/-- With the combinators exchanged, whoever holds exactly the other names is told the opposite. -/
theorem eval_dual {f : Formula} (h : ∀ s ∈ f.names, holds' s = !holds s) :
    f.dual.eval holds' = !f.eval holds := by
  induction f using Formula.induction with
  | held name => exact h name (List.mem_singleton_self name)
  | all parts ih =>
    exact evalAny_duals fun f hf => ih f hf fun s hs => h s (mem_namesOf.mpr ⟨f, hf, hs⟩)
  | any parts ih =>
    exact evalAll_duals fun f hf => ih f hf fun s hs => h s (mem_namesOf.mpr ⟨f, hf, hs⟩)

end Formula

/-! ## The formula of a request -/

namespace Request

mutual

/-- The formula that a request stands for, with a conjunction or a disjunction at its top.
A request with members that cannot be decided stands for none. -/
def formula? (useAnd : Bool) : Request → Option Formula
  | name s => some (.held s)
  | group members => (formulas? (!useAnd) members).map (.joined useAnd)
  | unreadable => none
  | endless => none

/-- The formulas that the members of a group stand for. -/
def formulas? (useAnd : Bool) : List Request → Option (List Formula)
  | [] => some []
  | r :: rest =>
    (formula? useAnd r).bind fun f => (formulas? useAnd rest).map (f :: ·)

end

theorem formulas?_cons {useAnd : Bool} {r : Request} {rest : List Request} {fs : List Formula} :
    formulas? useAnd (r :: rest) = some fs ↔
      ∃ f, formula? useAnd r = some f ∧
        ∃ fs', formulas? useAnd rest = some fs' ∧ f :: fs' = fs := by
  rw [formulas?, Option.bind_eq_some_iff]
  simp only [Option.map_eq_some_iff]

/-- The formulas of members that are known one by one. -/
theorem formulas?_map {α : Type} {useAnd : Bool} {f : α → Value} {g : α → Formula} {xs : List α}
    (h : ∀ x ∈ xs, formula? useAnd (ofValue (f x)) = some (g x)) :
    formulas? useAnd (ofValues (xs.map f)) = some (xs.map g) := by
  induction xs with
  | nil => rfl
  | cons x rest ih =>
    rw [List.forall_mem_cons] at h
    exact formulas?_cons.mpr ⟨_, h.1, _, ih h.2, rfl⟩

variable {holds : String → Bool}

mutual

/-- **A request is decided by its formula**, although not every member is looked at. -/
theorem satisfiedBy_of_formula? {useAnd : Bool} {r : Request} {f : Formula}
    (h : formula? useAnd r = some f) : satisfiedBy holds useAnd r = .ok (f.eval holds) := by
  cases r with
  | name s =>
    cases h
    rfl
  | group members =>
    obtain ⟨parts, hparts, rfl⟩ := Option.map_eq_some_iff.mp h
    exact allSatisfied_of_formulas? hparts
  | unreadable => cases h
  | endless => cases h

theorem allSatisfied_of_formulas? {useAnd : Bool} {members : List Request}
    {parts : List Formula} (h : formulas? (!useAnd) members = some parts) :
    allSatisfied holds useAnd members = .ok ((Formula.joined useAnd parts).eval holds) := by
  cases members with
  | nil =>
    cases h
    cases useAnd <;> rfl
  | cons r rest =>
    obtain ⟨f, hf, parts, hparts, rfl⟩ := formulas?_cons.mp h
    have hfirst := satisfiedBy_of_formula? hf
    have hrest := allSatisfied_of_formulas? hparts
    rw [allSatisfied, hfirst, hrest]
    -- the first member decides the group exactly when it differs from the combinator
    cases useAnd <;> cases hvalue : f.eval holds <;>
      simp [Formula.joined, Formula.eval, Formula.evalAll, Formula.evalAny, hvalue, bind,
        Except.bind, pure, Except.pure]

end

mutual

/-- Asked with the opposite combinator, a request stands for the dual formula. -/
theorem formula?_not {useAnd : Bool} {r : Request} {f : Formula}
    (h : formula? useAnd r = some f) : formula? (!useAnd) r = some f.dual := by
  cases r with
  | name s =>
    cases h
    rfl
  | group members =>
    obtain ⟨parts, hparts, rfl⟩ := Option.map_eq_some_iff.mp h
    rw [Formula.dual_joined]
    exact Option.map_eq_some_iff.mpr ⟨_, formulas?_not hparts, rfl⟩
  | unreadable => cases h
  | endless => cases h

theorem formulas?_not {useAnd : Bool} {members : List Request} {parts : List Formula}
    (h : formulas? useAnd members = some parts) :
    formulas? (!useAnd) members = some (Formula.duals parts) := by
  cases members with
  | nil =>
    cases h
    rfl
  | cons r rest =>
    obtain ⟨f, hf, parts, hparts, rfl⟩ := formulas?_cons.mp h
    exact formulas?_cons.mpr ⟨_, formula?_not hf, _, formulas?_not hparts, rfl⟩

end

end Request

/-- A value that spells a request: a name, or a list of such values, nested to any depth. -/
inductive Value.IsRequest : Value → Prop
  | name {v : Value} (h : v.IsName) : IsRequest v
  | list {items : List Value} (h : ∀ v ∈ items, IsRequest v) : IsRequest (.list items)
  | tuple {items : List Value} (h : ∀ v ∈ items, IsRequest v) : IsRequest (.tuple items)

namespace Request

theorem exists_formulas? {useAnd : Bool} {items : List Value}
    (h : ∀ v ∈ items, ∃ f, formula? useAnd (ofValue v) = some f) :
    ∃ parts, formulas? useAnd (ofValues items) = some parts := by
  induction items with
  | nil => exact ⟨[], rfl⟩
  | cons v rest ih =>
    rw [List.forall_mem_cons] at h
    obtain ⟨f, hf⟩ := h.1
    obtain ⟨parts, hparts⟩ := ih h.2
    exact ⟨f :: parts, formulas?_cons.mpr ⟨f, hf, parts, hparts, rfl⟩⟩

theorem exists_formula? {v : Value} (h : v.IsRequest) (useAnd : Bool) :
    ∃ f, formula? useAnd (ofValue v) = some f := by
  induction h generalizing useAnd with
  | name h =>
    rcases Value.isName_cases h with ⟨s, rfl⟩ | ⟨l, rfl⟩
    · exact ⟨_, rfl⟩
    · exact ⟨_, rfl⟩
  | list _ ih | tuple _ ih =>
    obtain ⟨parts, hparts⟩ := exists_formulas? fun v hv => ih v hv (!useAnd)
    exact ⟨_, Option.map_eq_some_iff.mpr ⟨parts, hparts, rfl⟩⟩

end Request

namespace StaticPrincipal

/-- **A principal with fixed credentials evaluates the formula of a request.** The top of
the request is a conjunction or a disjunction as it is asked for, and every nested list
takes the other combinator. What more names are held never loses a grant, and whoever holds
the opposite of the names is told the opposite when the combinators are exchanged. -/
theorem hasCredential_eq_eval {credentials : Value} (h : credentials.IsRequest)
    (useAnd : Bool) :
    ∃ f, (Request.ofValue credentials).formula? useAnd = some f ∧
      (∀ p : StaticPrincipal, p.hasCredential credentials useAnd = .ok (f.eval p.holds) ∧
        p.answerTo credentials (.bool useAnd) = .ok (.bool (f.eval p.holds)) ∧
        ∀ record, p.toHolder.ask credentials useAnd record =
          Run.answer (.now (.bool (f.eval p.holds)))) ∧
      (∀ p q : StaticPrincipal, (∀ s ∈ f.names, p.holds s = true → q.holds s = true) →
        p.hasCredential credentials useAnd = .ok true →
        q.hasCredential credentials useAnd = .ok true) ∧
      ∀ p q : StaticPrincipal, (∀ s ∈ f.names, q.holds s = !p.holds s) →
        ∀ granted, p.hasCredential credentials useAnd = .ok granted →
          q.hasCredential credentials (!useAnd) = .ok (!granted) := by
  obtain ⟨f, hf⟩ := Request.exists_formula? h useAnd
  have hdecided : ∀ p : StaticPrincipal,
      p.hasCredential credentials useAnd = .ok (f.eval p.holds) :=
    fun _ => Request.satisfiedBy_of_formula? hf
  refine ⟨f, hf, fun p => ⟨hdecided p, ?_, fun record => ?_⟩, ?_, ?_⟩
  · rw [answerTo, Value.isTrue, hdecided p]
    cases useAnd <;> cases f.eval p.holds <;> cases credentials.text?.isNone <;> rfl
  · simp only [toHolder, hdecided p, Run.ofExcept_ok, Run.bind_eq, Run.answer_andThen, Run.pure_eq]
  · intro p q hmore hgranted
    rw [hdecided p] at hgranted
    rw [hdecided q, Formula.eval_mono hmore (Except.ok.inj hgranted)]
  · intro p q hopposite granted hgranted
    rw [hdecided p] at hgranted
    have hdual : q.hasCredential credentials (!useAnd) = .ok (f.dual.eval q.holds) :=
      Request.satisfiedBy_of_formula? (Request.formula?_not hf)
    rw [hdual, Formula.eval_dual hopposite, Except.ok.inj hgranted]

/-- One of two rights to notes, and the right to view the index. -/
def indexedNotes : Value :=
  .list [.list [.text "Note___edit", .text "Note___own"], .text "Index___view"]

/-- Whoever edits notes and views the index is granted both; whoever holds neither of these
but the other right is denied the request with exchanged combinators. -/
theorem hasCredential_indexedNotes : indexedNotes.IsRequest ∧
    (Request.ofValue indexedNotes).formula? true =
      some (.all [.any [.held "Note___edit", .held "Note___own"], .held "Index___view"]) ∧
    (mk .null .null [.text "Note___edit", .text "Index___view"]).hasCredential indexedNotes
      true = .ok true ∧
    (mk .null .null [.text "Note___own"]).hasCredential indexedNotes false = .ok false := by
  have hrequest : indexedNotes.IsRequest := by
    refine .list (List.forall_mem_cons.mpr ⟨.list ?_, List.forall_mem_singleton.mpr (.name rfl)⟩)
    exact List.forall_mem_cons.mpr ⟨.name rfl, List.forall_mem_singleton.mpr (.name rfl)⟩
  have hformula : (Request.ofValue indexedNotes).formula? true =
      some (.all [.any [.held "Note___edit", .held "Note___own"], .held "Index___view"]) := rfl
  obtain ⟨f, hf, hdecided, -, hopposite⟩ := hasCredential_eq_eval hrequest true
  obtain rfl := Option.some.inj (hf.symm.trans hformula)
  have hgranted : (mk .null .null [.text "Note___edit", .text "Index___view"]).hasCredential
      indexedNotes true = .ok true :=
    (hdecided _).1.trans (congrArg Except.ok (by decide +kernel))
  exact ⟨hrequest, hformula, hgranted, hopposite _ _ (by decide +kernel) true hgranted⟩

end StaticPrincipal

end Clearance
