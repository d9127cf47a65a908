import Clearance.Policy
import Clearance.Proofs.Registry.Adding

/-! What a registry holds after credentials are declared.

Whatever the order and the collisions, a registry lists under a name exactly what the
declared credentials of that name list between them (`Registry.Holds`). One accepted
declaration keeps this (`Holds.add`), and so does a whole collection
(`Holds.addAll`). -/
namespace Clearance

namespace Registry

/-! ## What is held -/

/-- A registry holds what a list of credentials says: under the text of a name it
lists what the credentials of that name list. -/
structure Holds (r : Registry) (cs : List Credential) : Prop where
  nodup : (Entries.keys r.credentials).Nodup
  keyed : ∀ e ∈ r.credentials, e.2.name.text? = some e.1
  names : ∀ e ∈ r.credentials, e.2.ListsNames
  declared : ∀ a, a ∈ Entries.keys r.credentials ↔ ∃ c ∈ cs, c.name.text? = some a
  lists : ∀ rel a b, (∃ e ∈ r.credentials, e.1 = a ∧ e.2.Lists rel b) ↔
    ∃ c ∈ cs, c.name.text? = some a ∧ c.Lists rel b
  /-- What is true of all names that are declared and listed is true of those that are held. -/
  within : ∀ S : Value → Prop, (∀ c ∈ cs, S c.name ∧ c.Within S) →
    ∀ e ∈ r.credentials, S e.2.name ∧ e.2.Within S

theorem holds_empty (entityType : Value) : (empty entityType).Holds [] where
  nodup := List.nodup_nil
  keyed := by simp [empty]
  names := by simp [empty]
  declared := by simp [empty, Entries.keys]
  lists := by simp [empty]
  within := by simp [empty]

/-- Putting a credential in the place of one, or none, that it says more than. -/
theorem Holds.put {r : Registry} {cs : List Credential} (h : r.Holds cs) {name : String}
    {c kept : Credential} (hc : c.name.text? = some name) (hname : kept.name.text? = some name)
    (hkept : kept.ListsNames)
    (hlists : ∀ rel b, kept.Lists rel b ↔
      (∃ old, (name, old) ∈ r.credentials ∧ old.Lists rel b) ∨ c.Lists rel b)
    (hwithin : ∀ S : Value → Prop, S c.name → c.Within S →
      (∀ old, (name, old) ∈ r.credentials → S old.name ∧ old.Within S) →
      S kept.name ∧ kept.Within S) :
    (r.put name kept).Holds (cs ++ [c]) where
  nodup := Entries.nodup_keys_put h.nodup name kept
  keyed e he := by
    rcases (Entries.mem_put h.nodup).mp he with rfl | ⟨he, -⟩
    · exact hname
    · exact h.keyed e he
  names e he := by
    rcases (Entries.mem_put h.nodup).mp he with rfl | ⟨he, -⟩
    · exact hkept
    · exact h.names e he
  declared a := by
    rw [credentials_put, Entries.mem_keys_put, h.declared]
    simp only [List.mem_append, List.mem_singleton, or_and_right, exists_or, exists_eq_left, hc,
      Option.some.injEq]
    rw [or_comm, eq_comm]
  lists rel a b := by
    have hold := h.lists rel a b
    simp only [credentials_put, Entries.mem_put h.nodup, List.mem_append, List.mem_singleton,
      or_and_right, exists_or, exists_eq_left, hc, Option.some.injEq]
    rw [← hold, hlists]
    -- only the list of the name itself changes; entries of other names are still there
    by_cases ha : name = a
    · subst ha
      constructor
      · rintro (⟨-, ⟨old, hmem, hb⟩ | hb⟩ | ⟨e, ⟨-, hne⟩, heq, -⟩)
        · exact .inl ⟨_, hmem, rfl, hb⟩
        · exact .inr ⟨rfl, hb⟩
        · exact absurd heq hne
      · rintro (⟨⟨_, old⟩, hmem, rfl, hb⟩ | ⟨-, hb⟩)
        · exact .inl ⟨rfl, .inl ⟨old, hmem, hb⟩⟩
        · exact .inl ⟨rfl, .inr hb⟩
    · constructor
      · rintro (⟨heq, -⟩ | ⟨e, ⟨he, -⟩, heq, hb⟩)
        · exact absurd heq ha
        · exact .inl ⟨e, he, heq, hb⟩
      · rintro (⟨e, he, heq, hb⟩ | ⟨heq, -⟩)
        · exact .inr ⟨e, ⟨he, fun hn => ha (hn.symm.trans heq)⟩, heq, hb⟩
        · exact absurd heq ha
  within S hall e he := by
    obtain ⟨hcs, hone⟩ := List.forall_mem_append.mp hall
    obtain ⟨hcname, hcwithin⟩ := hone c List.mem_cons_self
    rcases (Entries.mem_put h.nodup).mp he with rfl | ⟨he, -⟩
    · exact hwithin S hcname hcwithin fun old hold => h.within S hcs _ hold
    · exact h.within S hcs e he

/-- What is accepted is held besides what was held before. -/
theorem Holds.add {r : Registry} {cs : List Credential} (h : r.Holds cs) {v : Value}
    {r' : Registry} {kept : Credential} (hadd : (add v).Answers r kept r') :
    ∃ c, Credential.ofValue? v = some c ∧ r'.Holds (cs ++ [c]) := by
  obtain ⟨name, c, haccept, hmerge, rfl⟩ := add_answers_iff.mp hadd
  obtain ⟨hof, htext, hnames⟩ := accept_eq_ok haccept
  refine ⟨c, hof, ?_⟩
  cases hfind : r.find? name with
  | none =>
    rw [hfind] at hmerge
    cases hmerge
    have hnew : ∀ old, (name, old) ∉ r.credentials := by
      intro old hmem
      exact Entries.lookup_eq_none_iff.mp hfind (List.mem_map_of_mem hmem)
    refine h.put htext htext hnames ?_ fun S hname hwithin _ => ⟨hname, hwithin⟩
    intro rel b
    simp [hnew]
  | some old =>
    rw [hfind] at hmerge
    have hold : (name, old) ∈ r.credentials := (Entries.lookup_eq_some_iff h.nodup).mp hfind
    have hname : kept.name = old.name := (Credential.isMerge_of_merge hmerge).name
    obtain ⟨hkept, hlists⟩ := Credential.lists_merge hmerge (h.names _ hold) hnames
    refine h.put htext (hname ▸ h.keyed _ hold) hkept ?_ ?_
    · intro rel b
      rw [hlists]
      refine or_congr_left ?_
      constructor
      · exact fun hb => ⟨old, hold, hb⟩
      · rintro ⟨old', hmem, hb⟩
        have heq : some old = some old' :=
          hfind.symm.trans ((Entries.lookup_eq_some_iff h.nodup).mpr hmem)
        cases heq
        exact hb
    · intro S hcname hwithin hall
      obtain ⟨honame, howithin⟩ := hall old hold
      exact ⟨hname ▸ honame, Credential.within_merge hmerge howithin hwithin⟩

/-! ## The mapping of a registry -/

variable {r : Registry} {cs : List Credential}

theorem Holds.word_declared (h : r.Holds cs) :
    (r.declared.map fun e => e.1.word) = Entries.keys r.credentials := by
  rw [Registry.declared, List.map_map]
  refine List.map_congr_left ?_
  intro e he
  exact (Value.text?_eq_some_iff.mp (h.keyed e he)).2

theorem Holds.wellFormed_declared (h : r.Holds cs) : r.declared.WellFormed where
  keys := by
    simp only [Registry.declared, List.forall_mem_map]
    intro e he
    exact (Value.text?_eq_some_iff.mp (h.keyed e he)).1
  distinct := h.word_declared ▸ h.nodup
  names := by
    simp only [Registry.declared, List.forall_mem_map]
    exact h.names

theorem Holds.lists_declared (h : r.Holds cs) {rel : Relation} {a b : String} :
    r.declared.Lists rel a b ↔ ∃ c ∈ cs, c.name.text? = some a ∧ c.Lists rel b := by
  rw [← h.lists]
  simp only [Declared.Lists, Registry.declared, List.mem_map, exists_exists_and_eq_and]
  refine exists_congr fun e => and_congr_right fun he => ?_
  rw [h.keyed e he, Option.some.injEq]

theorem Holds.within_declared (h : r.Holds cs) {S : Value → Prop}
    (hall : ∀ c ∈ cs, S c.name ∧ c.Within S) : ∀ e ∈ r.declared, S e.1 ∧ e.2.Within S := by
  simp only [Registry.declared, List.forall_mem_map]
  exact h.within S hall

/-! ## Whole collections -/

/-- **A collection.** When all items are accepted, what they say is held as well. -/
theorem Holds.addAll {r : Registry} {cs : List Credential} (h : r.Holds cs) (items : List Item)
    (hok : (r.addAll items).2.outcome = .ok ()) :
    (r.addAll items).1.Holds (cs ++ credentialsOf items) := by
  induction items generalizing r cs with
  | nil => simpa [credentialsOf, Registry.addAll] using h
  | cons item rest ih =>
    obtain ⟨f, hf⟩ | ⟨kept, r', hstep⟩ := addItem_cases r item
    · rw [(addAll_cons_of_error hf rest).2] at hok
      cases hok
    · obtain ⟨hfinal, houtcome⟩ := addAll_cons_of_answers hstep rest
      obtain ⟨c, hof, hr'⟩ := h.add (addItem_answers_iff.mp hstep).2
      have hcons : cs ++ credentialsOf (item :: rest) = cs ++ [c] ++ credentialsOf rest := by
        simp [credentialsOf, hof]
      rw [hfinal, hcons]
      exact ih hr' (houtcome.symm.trans hok)

/-! ## Built-in credentials -/

/-- The credentials that a registry starts with. -/
def builtIn (includeDefaults softDelete : Bool) : List Credential :=
  (if includeDefaults then Credential.defaults else []) ++
    if softDelete then Credential.softDeletion else []

/-- What is true of credentials that are written as lists of texts is true of the built-in ones. -/
theorem forall_builtIn {P : Credential → Prop}
    (h : ∀ name label description implies impliedBy subrights subrightOf,
      P (.ofNames name label description implies impliedBy subrights subrightOf))
    (includeDefaults softDelete : Bool) : ∀ c ∈ builtIn includeDefaults softDelete, P c := by
  cases includeDefaults <;> cases softDelete <;>
    simp [builtIn, Credential.supplied, Credential.defaults, Credential.softDeletion, h]

/-- Every entity type takes the built-in credentials. -/
theorem accept_builtIn (entityType : Value) (includeDefaults softDelete : Bool) :
    ∀ c ∈ builtIn includeDefaults softDelete,
      accept entityType c.toValue = .ok (c.name.word, c) := by
  have hall : ∀ c ∈ Credential.defaults ++ Credential.softDeletion,
      accept entityType c.toValue = .ok (c.name.word, c) :=
    List.forall_iff_forall_mem.mp ⟨rfl, rfl, rfl, rfl, rfl, rfl, rfl, rfl⟩
  intro c hc
  refine hall c ?_
  cases includeDefaults <;> cases softDelete <;> simp [builtIn] at hc <;> simp [hc]

/-- A registry starts with the built-in credentials as they are declared. -/
theorem startRegistry_eq (entityType : Value) (includeDefaults softDelete : Bool) :
    ((empty entityType).addAll (unkeyed (builtIn includeDefaults softDelete))).1 =
      Policy.startRegistry entityType includeDefaults softDelete ∧
    ((empty entityType).addAll (unkeyed (builtIn includeDefaults softDelete))).2.outcome =
      .ok () := by
  have hfresh : ∀ d s, ((builtIn d s).map fun c => c.name.word).Nodup := by decide
  have hall := fun d s => addAll_unkeyed_of_fresh (r := empty entityType)
    (accept_builtIn entityType d s) (hfresh d s)
  refine ⟨?_, (hall includeDefaults softDelete).2⟩
  rw [(hall includeDefaults softDelete).1]
  cases includeDefaults <;> cases softDelete
  · rfl
  · exact (hall false true).1.symm
  · exact (hall true false).1.symm
  · -- the credentials of soft deletion come behind the default ones
    change _ = (((empty entityType).addAll (unkeyed Credential.defaults)).1.addAll
      (unkeyed Credential.softDeletion)).1
    have hdefaults : ((empty entityType).addAll (unkeyed Credential.defaults)).1 =
        ⟨entityType, Credential.defaults.map fun c => (c.name.word, c)⟩ := (hall true false).1
    have hsoft : ∀ c ∈ Credential.softDeletion, accept entityType c.toValue =
        .ok (c.name.word, c) := accept_builtIn entityType false true
    have hlater := addAll_unkeyed_of_fresh
      (r := ⟨entityType, Credential.defaults.map fun c => (c.name.word, c)⟩) hsoft
      (by exact hfresh true true)
    rw [hdefaults, hlater.1]
    rfl

theorem holds_startRegistry (entityType : Value) (includeDefaults softDelete : Bool) :
    (Policy.startRegistry entityType includeDefaults softDelete).Holds
      (builtIn includeDefaults softDelete) := by
  obtain ⟨heq, hok⟩ := startRegistry_eq entityType includeDefaults softDelete
  have hall := (holds_empty entityType).addAll _ hok
  rwa [heq, credentialsOf_unkeyed, List.nil_append] at hall

theorem texts_builtIn (includeDefaults softDelete : Bool) :
    ∀ c ∈ builtIn includeDefaults softDelete, c.Texts :=
  forall_builtIn Credential.texts_ofNames includeDefaults softDelete

end Registry

end Clearance
