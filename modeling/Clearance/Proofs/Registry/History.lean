import Clearance.Proofs.Credential.Name
import Clearance.Proofs.Registry.Batches
import Clearance.Proofs.Registry.Holding

/-! What a registry is after any calls.

Callers add and declare credentials, one by one or by the collection, and some of these calls
fail. Whatever they do, the registry is what the accepted credentials make of an empty one
(`Reflects`): one entry for each name, in the order in which the names were first accepted, and
under each name the fold of the merges of its credentials. A call that fails adds to this what it
accepted before it failed, and only an update accepts several credentials
(`run_reflects`). -/
namespace Clearance.Registry

/-! ## Calls -/

/-- What callers ask of a registry. -/
inductive Call where
  | add (v : Value)
  | declare (draft : Credential)
  | update (credentials : Value)

/-- A call, without the credential that an addition answers. -/
def call : Call → Change Registry Unit
  | .add v => do
    let _ ← add v
    pure ()
  | .declare draft => do
    let _ ← declare draft
    pure ()
  | .update credentials => update credentials

/-- A registry after several calls, whether or not they fail. -/
def run (r : Registry) (calls : List Call) : Registry :=
  calls.foldl (fun r c => (r.call c).1) r

/-- The items that a call declares one after another. -/
def Call.items : Call → Except Failure (List Item)
  | .add v => .ok [⟨none, v⟩]
  | .declare draft => do
    let c ← draft.withTuples
    pure [⟨none, c.toValue⟩]
  | .update credentials => orMismatch (itemsOf? credentials)

/-- The items of a collection up to the first that is refused. -/
def taken (r : Registry) : List Item → List Item
  | [] => []
  | item :: rest =>
    match (r.addItem item).2.outcome with
    | .error _ => []
    | .ok _ => item :: (r.addItem item).1.taken rest

/-- The credentials that a call gets accepted. -/
def accepted (r : Registry) (c : Call) : List Credential :=
  match c.items with
  | .error _ => []
  | .ok items => credentialsOf (r.taken items)

/-- The credentials that several calls get accepted, in order. -/
def history (r : Registry) : List Call → List Credential
  | [] => []
  | c :: rest => r.accepted c ++ (r.call c).1.history rest

variable {r r' : Registry} {items : List Item}

/-! ## Items up to the first that is refused -/

theorem taken_cons_of_answers {item : Item} {kept : Credential}
    (h : (addItem item).Answers r kept r') (rest : List Item) :
    r.taken (item :: rest) = item :: r'.taken rest := by
  obtain ⟨hok, rfl⟩ := h
  rw [taken]
  simp only [hok]

theorem taken_cons_of_error {item : Item} {f : Failure}
    (h : (r.addItem item).2.outcome = .error f) (rest : List Item) :
    r.taken (item :: rest) = [] := by
  rw [taken]
  simp only [h]

/-- Of a collection that is accepted every item is. -/
theorem taken_of_ok (h : (r.addAll items).2.outcome = .ok ()) : r.taken items = items := by
  induction items generalizing r with
  | nil => rfl
  | cons item rest ih =>
    obtain ⟨f, hf⟩ | ⟨kept, r', hstep⟩ := addItem_cases r item
    · rw [(addAll_cons_of_error hf rest).2] at h
      cases h
    · rw [(addAll_cons_of_answers hstep rest).2] at h
      rw [taken_cons_of_answers hstep, ih h]

/-- **Where a collection stops.** All items before the one that is refused were accepted, and
what they leave is left. -/
theorem addAll_of_error {f : Failure} (h : (r.addAll items).2.outcome = .error f) :
    ∃ before item after, items = before ++ item :: after ∧
      (r.addAll before).2.outcome = .ok () ∧ (r.addAll items).1 = (r.addAll before).1 ∧
      ((r.addAll before).1.addItem item).2.outcome = .error f := by
  induction items generalizing r with
  | nil => cases h
  | cons item rest ih =>
    obtain ⟨f', hf⟩ | ⟨kept, r', hstep⟩ := addItem_cases r item
    · obtain ⟨hstays, hfails⟩ := addAll_cons_of_error hf rest
      cases hfails.symm.trans h
      exact ⟨[], item, rest, rfl, rfl, hstays, hf⟩
    · obtain ⟨hfinal, houtcome⟩ := addAll_cons_of_answers hstep rest
      obtain ⟨before, refused, after, rfl, hok, hleft, hrefused⟩ := ih (houtcome.symm.trans h)
      obtain ⟨hfront, hfrontok⟩ := addAll_cons_of_answers hstep before
      refine ⟨item :: before, refused, after, rfl, hfrontok.trans hok, ?_, ?_⟩
      · rw [hfinal, hleft, hfront]
      · rw [hfront]
        exact hrefused

/-! ## Calls by their items -/

/-- The steps of a declaration by parts. -/
theorem declare_eq (draft : Credential) :
    declare draft =
      (Change.ofRun (Run.ofExcept draft.withTuples)).andThen fun c : Credential => add c.toValue :=
  rfl

/-- A call whose items can be told declares them one after another. -/
theorem call_of_items {c : Call} (h : c.items = .ok items) : call c = addAll items := by
  cases c with
  | add v =>
    cases h
    rfl
  | declare draft =>
    obtain ⟨c, htuples, heq⟩ := bind_eq_ok_iff.mp h
    cases heq
    rw [call, declare_eq, htuples, Run.ofExcept_ok, Change.answer_andThen]
    rfl
  | update credentials =>
    rw [Call.items, orMismatch_eq_ok_iff] at h
    simp only [call, update, h]

/-- Any other call fails at once. -/
theorem call_of_error {c : Call} {f : Failure} (h : c.items = .error f) :
    call c = Change.ofRun (Run.fail f) := by
  cases c with
  | add v => cases h
  | declare draft =>
    rcases bind_eq_error_iff.mp h with htuples | ⟨c, -, heq⟩
    · rw [call, declare_eq, htuples, Run.ofExcept_error, Change.fail_andThen]
      rfl
    · cases heq
  | update credentials =>
    rw [Call.items] at h
    simp only [call, update]
    cases hitems : itemsOf? credentials with
    | none =>
      rw [hitems] at h
      cases h
      rfl
    | some items =>
      rw [hitems] at h
      cases h

/-- What a failing call leaves behind: the registry as it was, except that an update keeps what
stands before the first item that is refused. -/
def Call.Leaves (r : Registry) (f : Failure) (r' : Registry) : Call → Prop
  | .add _ => r' = r
  | .declare _ => r' = r
  | .update credentials => (itemsOf? credentials = none ∧ f = .mismatch ∧ r' = r) ∨
    ∃ before item after, itemsOf? credentials = some (before ++ item :: after) ∧
      (r.addAll before).2.outcome = .ok () ∧ r' = (r.addAll before).1 ∧
      (r'.addItem item).2.outcome = .error f

theorem atomic_declare (draft : Credential) : (declare draft).Atomic := by
  rw [declare_eq]
  exact Change.Atomic.after (fun c : Credential => atomic_add c.toValue) _

/-- **Failing calls.** -/
theorem leaves_of_error {c : Call} {f : Failure} (h : (r.call c).2.outcome = .error f) :
    c.Leaves r f (r.call c).1 := by
  cases c with
  | add v => exact (atomic_add v).before (fun _ _ => ⟨(), rfl⟩) r f h
  | declare draft => exact (atomic_declare draft).before (fun _ _ => ⟨(), rfl⟩) r f h
  | update credentials =>
    simp only [call, update, Call.Leaves] at h ⊢
    cases hitems : itemsOf? credentials with
    | none =>
      rw [hitems] at h
      cases h
      exact .inl ⟨rfl, rfl, rfl⟩
    | some items =>
      rw [hitems] at h
      obtain ⟨before, item, after, rfl, hok, hleft, hrefused⟩ := addAll_of_error h
      exact .inr ⟨before, item, after, rfl, hok, hleft, hleft ▸ hrefused⟩

/-! ## What a registry is made of -/

/-- A registry is what accepted credentials make of an empty one. Besides holding what they say
between them, it has one entry for each of their names, in the order of the first of each name,
and the entry of a name is the fold of the merges of the credentials of that name. -/
structure Reflects (r : Registry) (cs : List Credential) : Prop extends Holds r cs where
  acceptable : ∀ e ∈ r.credentials, Name.Accepted e.1
  order : Entries.keys r.credentials = (cs.map fun c => c.name.word).eraseDups
  listsNames : ∀ c ∈ cs, c.ListsNames
  merges : ∀ name, Credential.mergeAll none (Credential.ofName name cs) = .ok (r.find? name)

theorem reflects_empty (entityType : Value) : (empty entityType).Reflects [] where
  toHolds := holds_empty entityType
  acceptable := by simp [empty]
  order := rfl
  listsNames := by simp
  merges _ := rfl

namespace Reflects

variable {cs : List Credential}

/-- The entries of a registry say what the credentials of their names fold to. -/
theorem foldsTo (h : r.Reflects cs) {e : String × Credential} (he : e ∈ r.credentials) :
    Credential.FoldsTo (Credential.ofName e.1 cs) e.2 := by
  refine Credential.foldsTo_of_mergeAll ?_ ?_
  · exact fun c hc => h.listsNames c (List.mem_of_mem_filter hc)
  · rw [h.merges, find?, (Entries.lookup_eq_some_iff h.nodup).mpr he]

/-- **One item.** -/
theorem addItem (h : r.Reflects cs) {item : Item} {kept : Credential}
    (hstep : (Registry.addItem item).Answers r kept r') :
    ∃ c, Credential.ofValue? item.value = some c ∧ r'.Reflects (cs ++ [c]) := by
  obtain ⟨-, hadd⟩ := addItem_answers_iff.mp hstep
  obtain ⟨c, hof, hholds⟩ := h.toHolds.add hadd
  obtain ⟨name, c', haccept, hmerge, rfl⟩ := add_answers_iff.mp hadd
  obtain ⟨hof', hcheck, hlists, rfl⟩ := accept_eq_ok_iff.mp haccept
  cases hof.symm.trans hof'
  have htext := (accept_eq_ok haccept).2.1
  refine ⟨c, hof, hholds, ?_, ?_, ?_, ?_⟩
  · intro e he
    rcases (Entries.mem_put h.nodup).mp he with rfl | ⟨he, -⟩
    · exact (Name.check_eq_ok_iff.mp hcheck).2
    · exact h.acceptable e he
  · rw [List.map_append, List.map_singleton]
    exact Entries.keys_put_of_eraseDups h.order _ _
  · exact List.forall_mem_append.mpr ⟨h.listsNames, by simpa using hlists⟩
  · intro other
    rw [Credential.ofName_append, Credential.mergeAll_append, h.merges]
    exact mergeAll_ofName_cons htext hmerge [] other

/-- **A collection**, as far as it is accepted. -/
theorem addAll (h : r.Reflects cs) (items : List Item) :
    (r.addAll items).1.Reflects (cs ++ credentialsOf (r.taken items)) := by
  induction items generalizing r cs with
  | nil => simpa [taken, credentialsOf, Registry.addAll] using h
  | cons item rest ih =>
    obtain ⟨f, hf⟩ | ⟨kept, r', hstep⟩ := addItem_cases r item
    · rw [(addAll_cons_of_error hf rest).1, taken_cons_of_error hf]
      simpa [credentialsOf] using h
    · obtain ⟨c, hof, hr'⟩ := h.addItem hstep
      have hcons : cs ++ credentialsOf (item :: r'.taken rest) =
          cs ++ [c] ++ credentialsOf (r'.taken rest) := by
        simp [credentialsOf, hof]
      rw [(addAll_cons_of_answers hstep rest).1, taken_cons_of_answers hstep, hcons]
      exact ih hr'

/-- **A call**, whether or not it fails. -/
theorem call (h : r.Reflects cs) (c : Call) : (r.call c).1.Reflects (cs ++ r.accepted c) := by
  unfold accepted
  cases hitems : c.items with
  | error f =>
    rw [call_of_error hitems, List.append_nil]
    exact h
  | ok items =>
    rw [call_of_items hitems]
    exact h.addAll items

/-- **Any calls.** -/
theorem run (h : r.Reflects cs) (calls : List Call) :
    (r.run calls).Reflects (cs ++ r.history calls) := by
  induction calls generalizing r cs with
  | nil =>
    rw [history, List.append_nil]
    exact h
  | cons c rest ih =>
    rw [history, ← List.append_assoc]
    exact ih (h.call c)

end Reflects

/-- The built-in credentials are all accepted, the first ones first. -/
theorem reflects_startRegistry (entityType : Value) (includeDefaults softDelete : Bool) :
    (Policy.startRegistry entityType includeDefaults softDelete).Reflects
      (builtIn includeDefaults softDelete) := by
  obtain ⟨heq, hok⟩ := startRegistry_eq entityType includeDefaults softDelete
  have hall := (reflects_empty entityType).addAll (unkeyed (builtIn includeDefaults softDelete))
  rwa [heq, taken_of_ok hok, credentialsOf_unkeyed, List.nil_append] at hall

/-- **Any run of calls.** A registry that starts empty or with the built-in credentials is, after
any calls, what the built-in credentials and those that the calls got accepted make of an empty
one; every entry says what the credentials of its name fold to, one after another. An addition or
a declaration that fails leaves the registry as it was, and an update that fails leaves what the
items before the first that is refused make of it. -/
theorem run_reflects (entityType : Value) (includeDefaults softDelete : Bool)
    (calls : List Call) :
    let start := Policy.startRegistry entityType includeDefaults softDelete
    let accepted := builtIn includeDefaults softDelete ++ start.history calls
    (start.run calls).Reflects accepted ∧
      (∀ e ∈ (start.run calls).credentials,
        Credential.FoldsTo (Credential.ofName e.1 accepted) e.2) ∧
      ∀ (r : Registry) (c : Call) (f : Failure), (r.call c).2.outcome = .error f →
        c.Leaves r f (r.call c).1 := by
  intro start accepted
  have hall : (start.run calls).Reflects accepted :=
    (reflects_startRegistry entityType includeDefaults softDelete).run calls
  exact ⟨hall, fun e he => hall.foldsTo he, fun r c f hfail => leaves_of_error hfail⟩

/-- A declaration under a known name, an addition that fails, and an update whose second item is
refused. -/
def mixedCalls : List Call :=
  [.declare { name := .text "edit", implies := .list [.text "create"] },
    .add (.text "approve"),
    .update (.list [(Credential.ofNames "approve" none none [] [] [] ["edit"]).toValue,
      (Credential.ofNames "late___approve" none none [] [] [] []).toValue,
      (Credential.ofNames "archive" none none [] [] [] []).toValue])]

/-- Of `mixedCalls` the update gets one credential accepted and the addition none; `edit` folds
what it was built in with and what was declared under its name. -/
theorem run_mixedCalls :
    let start := Policy.startRegistry (.text "Note") true false
    let accepted := builtIn true false ++ start.history mixedCalls
    Entries.keys (start.run mixedCalls).credentials =
        ["manager", "create", "view", "edit", "delete", "approve"] ∧
      (∃ kept, ("edit", kept) ∈ (start.run mixedCalls).credentials ∧
        Credential.FoldsTo (Credential.ofName "edit" accepted) kept) ∧
      (start.call (.add (.text "approve"))).1 = start := by
  intro start accepted
  obtain ⟨hall, hfolds, hleaves⟩ := run_reflects (.text "Note") true false mixedCalls
  have hkeys : Entries.keys (start.run mixedCalls).credentials =
      ["manager", "create", "view", "edit", "delete", "approve"] := by
    rw [hall.order]
    decide
  obtain ⟨kept, hfind⟩ : ∃ kept, (start.run mixedCalls).find? "edit" = some kept := ⟨_, rfl⟩
  have hmem : ("edit", kept) ∈ (start.run mixedCalls).credentials :=
    (Entries.lookup_eq_some_iff hall.nodup).mp hfind
  exact ⟨hkeys, ⟨kept, hmem, hfolds _ hmem⟩, hleaves start (.add (.text "approve")) _ rfl⟩

end Clearance.Registry
