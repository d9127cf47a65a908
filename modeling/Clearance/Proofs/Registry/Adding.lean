import Clearance.Proofs.Change
import Clearance.Proofs.Credential.Merging
import Clearance.Proofs.Credential.Name
import Clearance.Proofs.Entries
import Clearance.Registry

/-! Declaring one credential after another.

Every declaration is inverted once: what it takes to be accepted, what is merged, and
which table it leaves (`add_answers_iff`, `addItem_answers_iff`). A collection is its first
item and then the rest, up to the first item that is refused. -/
namespace Clearance.Registry

/-! ## What is accepted -/

theorem listsNames_of_checkReferences {owner : Value} {c : Credential} {relations : List Relation}
    (h : checkReferences owner c relations = .ok ()) :
    ∀ r ∈ relations, ∃ items, (c.relation r).members? = some items ∧ ∀ v ∈ items, v.IsName := by
  induction relations with
  | nil => simp
  | cons r rest ih =>
    simp only [checkReferences] at h
    split at h
    · cases h
    · rename_i items hitems
      split at h
      · exact absurd h refuse_ne_ok
      · rename_i hfind
        refine List.forall_mem_cons.mpr ⟨⟨items, hitems, ?_⟩, ih h⟩
        intro v hv
        have := List.find?_eq_none.mp hfind v hv
        simpa [Value.IsName, ← Option.isSome_iff_ne_none] using this

theorem checkReferences_of_listsNames (owner : Value) {c : Credential} (h : c.ListsNames)
    (relations : List Relation) : checkReferences owner c relations = .ok () := by
  induction relations with
  | nil => rfl
  | cons r rest ih =>
    obtain ⟨names, hnames, hall⟩ := h r
    have hfind : (names.find? fun v => v.text?.isNone) = none := by
      rw [List.find?_eq_none]
      intro v hv
      simp [(hall v hv).text?]
    simp [checkReferences, hnames, hfind, ih]

/-- What is accepted is a credential whose name is a text and whose relations list names. -/
theorem accept_eq_ok {owner v : Value} {name : String} {c : Credential}
    (h : accept owner v = .ok (name, c)) :
    Credential.ofValue? v = some c ∧ c.name.text? = some name ∧ c.ListsNames := by
  unfold accept at h
  split at h
  · exact absurd h refuse_ne_ok
  · rename_i c' hc
    obtain ⟨_, hname, h⟩ := bind_eq_ok_iff.mp h
    obtain ⟨_, hrefs, h⟩ := bind_eq_ok_iff.mp h
    cases h
    refine ⟨hc, ?_, fun r => listsNames_of_checkReferences hrefs r (Relation.mem_all r)⟩
    rw [(Name.check_eq_ok_iff.mp hname).1.text?]
    rfl

/-- What is accepted are the credentials with an acceptable name that list names. -/
theorem accept_eq_ok_iff {owner v : Value} {name : String} {c : Credential} :
    accept owner v = .ok (name, c) ↔ Credential.ofValue? v = some c ∧
      Name.check owner c.name = .ok () ∧ c.ListsNames ∧ name = c.name.word := by
  constructor
  · intro h
    obtain ⟨hc, hname, hlists⟩ := accept_eq_ok h
    refine ⟨hc, ?_, hlists, (Value.text?_eq_some_iff.mp hname).2.symm⟩
    unfold accept at h
    simp only [hc] at h
    obtain ⟨_, hcheck, -⟩ := bind_eq_ok_iff.mp h
    exact hcheck
  · rintro ⟨hc, hcheck, hlists, rfl⟩
    simp [accept, hc, hcheck, checkReferences_of_listsNames owner hlists, bind, Except.bind, pure,
      Except.pure, Value.word]

/-! ## One declaration -/

/-- What is kept under a name is what the declared credential merges to over what stands
there. -/
theorem outcome_kept (r : Registry) (name : String) (c : Credential) :
    (r.kept name c).outcome = Credential.mergeOnto (r.find? name) c := by
  unfold kept
  cases r.find? name <;> rfl

/-- The steps of a declaration: acceptance, merging, and only then the write. -/
theorem add_eq (v : Value) :
    add v = Change.current.andThen fun r =>
      (Change.ofRun (Run.ofExcept (accept r.entityType v))).andThen fun e =>
        (Change.ofRun (r.kept e.1 e.2)).andThen fun kept =>
          (Change.modify (·.put e.1 kept)).andThen fun _ => Change.ofRun (Run.answer kept) :=
  rfl

/-- **One declaration.** What is accepted merges over what stands under its name, and
the outcome stands there from then on; nothing else changes. -/
theorem add_answers_iff {r r' : Registry} {v : Value} {kept : Credential} :
    (add v).Answers r kept r' ↔ ∃ name c, accept r.entityType v = .ok (name, c) ∧
      Credential.mergeOnto (r.find? name) c = .ok kept ∧ r' = r.put name kept := by
  rw [add_eq, Change.Answers, Change.current_andThen, ← Change.Answers,
    Change.answers_andThen_iff]
  simp only [Change.answers_andThen_iff, Change.answers_ofRun_iff, Change.answers_modify_iff,
    Run.outcome_ofExcept, outcome_kept, Run.outcome_answer, Except.ok.injEq]
  constructor
  · rintro ⟨⟨name, c⟩, _, ⟨haccept, rfl⟩, m, _, ⟨hmerge, rfl⟩, ⟨⟩, _, rfl, rfl, rfl⟩
    exact ⟨name, c, haccept, hmerge, rfl⟩
  · rintro ⟨name, c, haccept, hmerge, rfl⟩
    exact ⟨(name, c), r, ⟨haccept, rfl⟩, kept, r, ⟨hmerge, rfl⟩, (), _, rfl, rfl, rfl⟩

/-- What an addition ends in: acceptance, then merging. -/
theorem outcome_add (r : Registry) (v : Value) :
    (r.add v).2.outcome =
      (accept r.entityType v >>= fun e => Credential.mergeOnto (r.find? e.1) e.2) := by
  rw [add_eq, Change.current_andThen, Change.outcome_ofRun_andThen, Run.outcome_ofExcept]
  refine congrArg _ (funext fun e => ?_)
  rw [Change.outcome_ofRun_andThen, outcome_kept]
  cases Credential.mergeOnto (r.find? e.1) e.2 <;> rfl

/-- **A refused declaration leaves the table as it was**: the write is its last step. -/
theorem atomic_add (v : Value) : (add v).Atomic := by
  rw [add_eq]
  refine Change.atomic_current fun r => Change.Atomic.after (fun e => ?_) _
  refine Change.Atomic.after (fun kept => ?_) _
  rintro s f hf
  cases hf

/-- The steps of an item: the check of its key, and its declaration. -/
theorem addItem_eq (item : Item) :
    addItem item = Change.current.andThen fun r =>
      (Change.ofRun (Run.ofExcept (checkKey r.entityType item))).andThen fun _ =>
        add item.value :=
  rfl

/-- **One item.** It is declared exactly when its key is its name and it can be added. -/
theorem addItem_answers_iff {r r' : Registry} {item : Item} {kept : Credential} :
    (addItem item).Answers r kept r' ↔
      checkKey r.entityType item = .ok () ∧ (add item.value).Answers r kept r' := by
  rw [addItem_eq, Change.Answers, Change.current_andThen, ← Change.Answers,
    Change.answers_andThen_iff]
  simp only [Change.answers_ofRun_iff, Run.outcome_ofExcept]
  constructor
  · rintro ⟨⟨⟩, _, ⟨hkey, rfl⟩, hadd⟩
    exact ⟨hkey, hadd⟩
  · rintro ⟨hkey, hadd⟩
    exact ⟨(), r, ⟨hkey, rfl⟩, hadd⟩

theorem outcome_addItem (r : Registry) (item : Item) :
    (r.addItem item).2.outcome =
      (checkKey r.entityType item >>= fun _ => (r.add item.value).2.outcome) := by
  rw [addItem_eq, Change.current_andThen, Change.outcome_ofRun_andThen, Run.outcome_ofExcept]

theorem atomic_addItem (item : Item) : (addItem item).Atomic := by
  rw [addItem_eq]
  exact Change.atomic_current fun _ => Change.Atomic.after (fun _ => atomic_add item.value) _

/-! ## Collections -/

/-- The credentials among some items. -/
def credentialsOf (items : List Item) : List Credential :=
  items.filterMap fun item => Credential.ofValue? item.value

theorem credentialsOf_unkeyed (cs : List Credential) : credentialsOf (unkeyed cs) = cs := by
  simp [credentialsOf, unkeyed, List.filterMap_map, Function.comp_def]

/-- What is admitted is counted among the credentials of a collection. -/
theorem credentialsOf_cons {owner : Value} {item : Item} {name : String} {c : Credential}
    (h : accept owner item.value = .ok (name, c)) (rest : List Item) :
    credentialsOf (item :: rest) = c :: credentialsOf rest := by
  simp [credentialsOf, (accept_eq_ok h).1]

variable {r : Registry}

theorem addAll_cons_of_answers {item : Item} {r' : Registry} {kept : Credential}
    (h : (addItem item).Answers r kept r') (rest : List Item) :
    (r.addAll (item :: rest)).1 = (r'.addAll rest).1 ∧
      (r.addAll (item :: rest)).2.outcome = (r'.addAll rest).2.outcome := by
  obtain ⟨hok, rfl⟩ := h
  rw [addAll, Change.bind_eq, Change.andThen_of_ok hok]
  exact ⟨rfl, rfl⟩

theorem addAll_cons_of_error {item : Item} {f : Failure}
    (h : (r.addItem item).2.outcome = .error f) (rest : List Item) :
    (r.addAll (item :: rest)).1 = r ∧ (r.addAll (item :: rest)).2.outcome = .error f := by
  rw [addAll, Change.bind_eq, Change.andThen_of_error h]
  exact ⟨atomic_addItem item r f h, rfl⟩

/-- A collection ends in what its first item ends in, and else in what the rest does. -/
theorem outcome_addAll_cons (item : Item) (rest : List Item) :
    (r.addAll (item :: rest)).2.outcome =
      ((r.addItem item).2.outcome >>= fun _ => ((r.addItem item).1.addAll rest).2.outcome) :=
  Change.outcome_andThen (addItem item) fun _ => addAll rest

/-- Whoever declares a collection declares its first item, which is refused, or taken. -/
theorem addItem_cases (r : Registry) (item : Item) :
    (∃ f, (r.addItem item).2.outcome = .error f) ∨
      ∃ kept r', (addItem item).Answers r kept r' := by
  cases h : (r.addItem item).2.outcome with
  | error f => exact .inl ⟨f, rfl⟩
  | ok kept => exact .inr ⟨kept, _, h, rfl⟩

/-- Credentials of new names, no two of which are the same, are taken as they are declared. -/
theorem addAll_unkeyed_of_fresh {cs : List Credential}
    (haccept : ∀ c ∈ cs, accept r.entityType c.toValue = .ok (c.name.word, c))
    (hnew : (Entries.keys r.credentials ++ cs.map fun c => c.name.word).Nodup) :
    (r.addAll (unkeyed cs)).1 =
        ⟨r.entityType, r.credentials ++ cs.map fun c => (c.name.word, c)⟩ ∧
      (r.addAll (unkeyed cs)).2.outcome = .ok () := by
  induction cs generalizing r with
  | nil => exact ⟨by rw [List.map_nil, List.append_nil]; rfl, rfl⟩
  | cons c rest ih =>
    rw [List.forall_mem_cons] at haccept
    have hfresh : c.name.word ∉ Entries.keys r.credentials := fun hmem =>
      (List.nodup_append.mp hnew).2.2 _ hmem _ List.mem_cons_self rfl
    have hmerge : Credential.mergeOnto (r.find? c.name.word) c = .ok c := by
      rw [find?, Entries.lookup_eq_none_iff.mpr hfresh]
      rfl
    have hadd := add_answers_iff.mpr ⟨_, _, haccept.1, hmerge, rfl⟩
    obtain ⟨hfinal, houtcome⟩ := addAll_cons_of_answers
      (addItem_answers_iff.mpr ⟨(rfl : checkKey r.entityType ⟨none, c.toValue⟩ = .ok ()), hadd⟩)
      (unkeyed rest)
    have hput : (r.put c.name.word c).credentials = r.credentials ++ [(c.name.word, c)] :=
      Entries.put_of_not_mem hfresh c
    have hrest := ih (r := r.put c.name.word c) haccept.2 (by
      rw [hput, Entries.keys, List.map_append, List.append_assoc]
      exact hnew)
    rw [hput, List.append_assoc] at hrest
    exact ⟨hfinal.trans hrest.1, houtcome.trans hrest.2⟩

theorem entityType_addAll (r : Registry) (items : List Item) :
    (r.addAll items).1.entityType = r.entityType := by
  induction items generalizing r with
  | nil => rfl
  | cons item rest ih =>
    obtain ⟨f, hf⟩ | ⟨kept, r', hstep⟩ := addItem_cases r item
    · rw [(addAll_cons_of_error hf rest).1]
    · obtain ⟨name, c, -, -, rfl⟩ := add_answers_iff.mp (addItem_answers_iff.mp hstep).2
      rw [(addAll_cons_of_answers hstep rest).1, ih, entityType_put]

/-- No name is ever there twice, whether or not all items are accepted. -/
theorem nodup_keys_addAll (h : (Entries.keys r.credentials).Nodup) (items : List Item) :
    (Entries.keys (r.addAll items).1.credentials).Nodup := by
  induction items generalizing r with
  | nil => exact h
  | cons item rest ih =>
    obtain ⟨f, hf⟩ | ⟨kept, r', hstep⟩ := addItem_cases r item
    · rw [(addAll_cons_of_error hf rest).1]
      exact h
    · obtain ⟨name, c, -, -, rfl⟩ := add_answers_iff.mp (addItem_answers_iff.mp hstep).2
      rw [(addAll_cons_of_answers hstep rest).1]
      exact ih (Entries.nodup_keys_put h name kept)

end Clearance.Registry
