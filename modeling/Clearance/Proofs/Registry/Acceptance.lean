import Clearance.Proofs.Credential.Name
import Clearance.Proofs.Registry.Adding

/-! Which declarations a registry takes.

Credentials whose names are texts and whose relations are tuples of texts can be refused
for their names alone: nothing goes wrong when their relations are read, nor when they are
merged. `rejectsUnless_addAll` says which collections of them are taken. -/
namespace Clearance

namespace Credential

/-- A credential as it is declared in code: its name is one, and every relation is a
tuple of names. -/
structure Typed (c : Credential) : Prop where
  name : c.name.IsName
  relations : ∀ r, ∃ names, c.relation r = .tuple names ∧ ∀ v ∈ names, v.IsName

theorem Typed.listsNames {c : Credential} (h : c.Typed) : c.ListsNames := by
  intro r
  obtain ⟨names, hnames, hall⟩ := h.relations r
  exact ⟨names, by rw [hnames, Value.members?_tuple], hall⟩

theorem typed_ofNames (name : String) (label description : Option (Caption String))
    (implies impliedBy subrights subrightOf : List String) :
    (ofNames name label description implies impliedBy subrights subrightOf).Typed := by
  have htuple : ∀ names : List String, ∃ members, Value.tupleOfNames names = .tuple members ∧
      ∀ v ∈ members, v.IsName := by
    intro names
    refine ⟨_, rfl, ?_⟩
    simp
  refine ⟨Value.isName_text name, ?_⟩
  intro r
  cases r with
  | implies => exact htuple implies
  | impliedBy => exact htuple impliedBy
  | subrights => exact htuple subrights
  | subrightOf => exact htuple subrightOf

/-- Two tuples of names have a union. -/
theorem mergeRelation_of_tuples {xs ys : List Value} (hx : ∀ v ∈ xs, v.IsName)
    (hy : ∀ v ∈ ys, v.IsName) :
    mergeRelation (.tuple xs) (.tuple ys) = .ok (.tuple (Value.distinct (xs ++ ys))) := by
  have hkeys := Value.allHashable_of_names (List.forall_mem_append.mpr ⟨hx, hy⟩)
  simp [mergeRelation, concatenate?, orMismatch, bind, Except.bind, pure, Except.pure, hkeys]

/-- Typed credentials merge, and what they merge to is typed. -/
theorem Typed.merge {base override : Credential} (hb : base.Typed) (ho : override.Typed) :
    ∃ m, base.merge override = .ok m ∧ m.Typed := by
  have hrelation : ∀ r, ∃ names,
      mergeRelation (base.relation r) (override.relation r) = .ok (.tuple names) ∧
      ∀ v ∈ names, v.IsName := by
    intro r
    obtain ⟨xs, hxs, hx⟩ := hb.relations r
    obtain ⟨ys, hys, hy⟩ := ho.relations r
    rw [hxs, hys, mergeRelation_of_tuples hx hy]
    exact ⟨_, rfl, Value.isName_of_mem_distinct (List.forall_mem_append.mpr ⟨hx, hy⟩)⟩
  obtain ⟨implies, h1, p1⟩ := hrelation .implies
  obtain ⟨impliedBy, h2, p2⟩ := hrelation .impliedBy
  obtain ⟨subrights, h3, p3⟩ := hrelation .subrights
  obtain ⟨subrightOf, h4, p4⟩ := hrelation .subrightOf
  simp only [relation] at h1 h2 h3 h4
  unfold Credential.merge
  simp only [h1, h2, h3, h4]
  refine ⟨_, rfl, hb.name, ?_⟩
  intro r
  cases r with
  | implies => exact ⟨implies, rfl, p1⟩
  | impliedBy => exact ⟨impliedBy, rfl, p2⟩
  | subrights => exact ⟨subrights, rfl, p3⟩
  | subrightOf => exact ⟨subrightOf, rfl, p4⟩

end Credential

namespace Registry

/-! ## One declaration -/

/-- An item that is a credential as it is declared in code. -/
def Item.Typed (item : Item) : Prop :=
  ∃ c, Credential.ofValue? item.value = some c ∧ c.Typed

/-- An item whose credential has an acceptable name, under no key but that name. -/
def Item.Named (item : Item) : Prop :=
  ∀ c, Credential.ofValue? item.value = some c → Name.Accepted c.name.word ∧
    ∀ key, item.key = some key → key.text? = some c.name.word

/-- An item whose key cannot be written out. -/
def Item.Unkeyable (item : Item) : Prop :=
  ∃ key, item.key = some key ∧ key.writable = false

/-- Every kept credential is one as it is declared in code. -/
def Typed (r : Registry) : Prop :=
  ∀ name c, r.find? name = some c → c.Typed

/-- A key is taken exactly when it is the name of the credential. Refusing one that cannot be
written out sticks. -/
theorem rejectsUnless_checkKey {owner : Value} (howner : owner.writable = true) {item : Item}
    {c : Credential} (hc : Credential.ofValue? item.value = some c) (hname : c.name.IsName) :
    RejectsUnless .invalidCredential
      (∀ key, item.key = some key → key.text? = some c.name.word) (checkKey owner item)
      (Sticks item.Unkeyable) := by
  unfold checkKey Item.Unkeyable
  rw [hc]
  cases item.key with
  | none => exact RejectsUnless.congr (rejectsUnless_ok trivial) (by simp) fun f => by simp [Sticks]
  | some key =>
    simp only [Option.some.injEq, forall_eq', exists_eq_left']
    rw [← Value.same_iff_of_isName hname]
    split
    · rename_i hkey
      have htext := (Value.same_iff_of_isName hname).mp hkey
      refine RejectsUnless.congr (rejectsUnless_ok hkey) Iff.rfl fun f => ?_
      simp [Sticks, Value.writable_of_text? htext]
    · rename_i hkey
      exact rejectsUnless_refuse hkey rfl (by simp [Rejection.written, howner, hname.writable])

/-- A typed credential is accepted exactly when its name is. -/
theorem rejectsUnless_accept {owner : Value} (howner : owner.writable = true) {v : Value}
    {c : Credential} (hc : Credential.ofValue? v = some c) (h : c.Typed) :
    RejectsUnless .invalidCredential (Name.Accepted c.name.word) (accept owner v) := by
  have haccept : accept owner v =
      (Name.check owner c.name >>= fun _ => .ok (c.name.word, c)) := by
    unfold accept
    simp only [hc, checkReferences_of_listsNames owner h.listsNames]
    rfl
  rw [haccept]
  exact RejectsUnless.congr ((Name.rejectsUnless_check howner c.name).map fun _ => (c.name.word, c))
    (and_iff_right h.name) fun f => by simp [Sticks, h.name.writable]

variable {r : Registry}

theorem typed_empty (entityType : Value) : (empty entityType).Typed := by
  intro name c hfind
  cases hfind

/-- What is kept stays typed when a typed credential is put there. -/
theorem Typed.put (h : r.Typed) (name : String) {kept : Credential} (hkept : kept.Typed) :
    (r.put name kept).Typed := by
  intro other c hfind
  rw [find?, credentials_put] at hfind
  by_cases hother : other = name
  · subst hother
    rw [Entries.lookup_put_self] at hfind
    cases hfind
    exact hkept
  · rw [Entries.lookup_put_of_ne hother] at hfind
    exact h other c hfind

/-- Declaring a typed credential over typed ones ends in a typed one. -/
theorem Typed.mergeOnto (h : r.Typed) (name : String) {c : Credential} (hc : c.Typed) :
    ∃ kept, Credential.mergeOnto (r.find? name) c = .ok kept ∧ kept.Typed := by
  cases hfind : r.find? name with
  | none => exact ⟨c, rfl, hc⟩
  | some old => exact (h name old hfind).merge hc

/-- **One item.** It is taken exactly when it is named as it should be. -/
theorem rejectsUnless_addItem (h : r.Typed) (howner : r.entityType.writable = true) {item : Item}
    (hitem : item.Typed) :
    RejectsUnless .invalidCredential item.Named (r.addItem item).2.outcome
      (Sticks item.Unkeyable) := by
  obtain ⟨c, hc, htyped⟩ := hitem
  have hadd : RejectsUnless .invalidCredential (Name.Accepted c.name.word)
      (r.add item.value).2.outcome := by
    rw [outcome_add]
    -- a typed credential merges over whatever stands under its name
    have hmerges : ∀ e, accept r.entityType item.value = .ok e →
        RejectsUnless .invalidCredential True
          (Credential.mergeOnto (r.find? e.1) e.2) := by
      intro e he
      obtain ⟨hc', -⟩ := accept_eq_ok he
      cases hc.symm.trans hc'
      obtain ⟨kept, hkept, -⟩ := h.mergeOnto e.1 htyped
      rw [hkept]
      exact rejectsUnless_ok trivial
    exact ((rejectsUnless_accept howner hc htyped).bind hmerges).congr (and_iff_left trivial)
      fun f => by simp
  rw [outcome_addItem]
  refine RejectsUnless.congr ((rejectsUnless_checkKey howner hc htyped.name).bind fun _ _ => hadd)
    ?_ fun f => by simp
  rw [Item.Named, and_comm]
  simp [hc]

theorem typed_of_addItem (h : r.Typed) {item : Item} (hitem : item.Typed) {r' : Registry}
    {kept : Credential} (hok : (addItem item).Answers r kept r') :
    r'.Typed ∧ r'.entityType = r.entityType := by
  obtain ⟨c, hc, htyped⟩ := hitem
  obtain ⟨name, c', haccept, hmerge, rfl⟩ := add_answers_iff.mp (addItem_answers_iff.mp hok).2
  have hsame : c' = c := Option.some.inj ((accept_eq_ok haccept).1.symm.trans hc)
  obtain ⟨kept', hmerge', hkept⟩ := h.mergeOnto name (hsame ▸ htyped)
  cases hmerge.symm.trans hmerge'
  exact ⟨h.put name hkept, rfl⟩

/-- Whoever owns the registry, it takes an item that is named as it should be. -/
theorem addItem_of_named (h : r.Typed) {item : Item} (hitem : item.Typed) (hnamed : item.Named) :
    ∃ kept r', (addItem item).Answers r kept r' := by
  obtain ⟨c, hc, htyped⟩ := hitem
  obtain ⟨haccepted, hkey⟩ := hnamed c hc
  have hcheck : checkKey r.entityType item = .ok () := by
    unfold checkKey
    rw [hc]
    cases hitemkey : item.key with
    | none => rfl
    | some key => exact if_pos ((Value.same_iff_of_isName htyped.name).mpr (hkey key hitemkey))
  obtain ⟨kept, hkept, -⟩ := h.mergeOnto c.name.word htyped
  have haccept : accept r.entityType item.value = .ok (c.name.word, c) := accept_eq_ok_iff.mpr
    ⟨hc, Name.check_eq_ok_iff.mpr ⟨htyped.name, haccepted⟩, htyped.listsNames, rfl⟩
  exact ⟨kept, _, addItem_answers_iff.mpr
    ⟨hcheck, add_answers_iff.mpr ⟨_, c, haccept, hkept, rfl⟩⟩⟩

/-! ## Collections -/

/-- Whoever owns the registry, it takes items that are all named as they should be. -/
theorem addAll_of_named (h : r.Typed) {items : List Item} (hitems : ∀ item ∈ items, item.Typed)
    (hnamed : ∀ item ∈ items, item.Named) : (r.addAll items).2.outcome = .ok () := by
  induction items generalizing r with
  | nil => rfl
  | cons item rest ih =>
    rw [List.forall_mem_cons] at hitems hnamed
    obtain ⟨kept, r', hstep⟩ := addItem_of_named h hitems.1 hnamed.1
    rw [(addAll_cons_of_answers hstep rest).2]
    exact ih (typed_of_addItem h hitems.1 hstep).1 hitems.2 hnamed.2

/-- **A collection.** It is taken exactly when every item is named as it should be. Refusing
the first item that is not sticks when its key cannot be written out. -/
theorem rejectsUnless_addAll (h : r.Typed) (howner : r.entityType.writable = true)
    {items : List Item} (hitems : ∀ item ∈ items, item.Typed) :
    RejectsUnless .invalidCredential (∀ item ∈ items, item.Named)
      (r.addAll items).2.outcome (Sticks (StopsIn Item.Named Item.Unkeyable items)) := by
  induction items generalizing r with
  | nil =>
    exact RejectsUnless.congr (rejectsUnless_ok trivial) (by simp)
      fun f => iff_of_false id fun hf => not_stopsIn_nil hf.2
  | cons item rest ih =>
    rw [List.forall_mem_cons] at hitems
    rw [outcome_addAll_cons, List.forall_mem_cons, stopsIn_cons]
    refine RejectsUnless.congr ((rejectsUnless_addItem h howner hitems.1).bind fun kept hkept => ?_)
      Iff.rfl fun f => sticks_or_and.symm
    obtain ⟨htyped, hentity⟩ := typed_of_addItem h hitems.1 ⟨hkept, rfl⟩
    exact ih htyped (hentity ▸ howner) hitems.2

/-- Whether or not all of a collection is taken, what is kept is typed. -/
theorem Typed.addAll (h : r.Typed) {items : List Item} (hitems : ∀ item ∈ items, item.Typed) :
    (r.addAll items).1.Typed := by
  induction items generalizing r with
  | nil => exact h
  | cons item rest ih =>
    rw [List.forall_mem_cons] at hitems
    obtain ⟨f, hf⟩ | ⟨kept, r', hstep⟩ := addItem_cases r item
    · rw [(addAll_cons_of_error hf rest).1]
      exact h
    · rw [(addAll_cons_of_answers hstep rest).1]
      exact ih (typed_of_addItem h hitems.1 hstep).1 hitems.2

end Registry

end Clearance
