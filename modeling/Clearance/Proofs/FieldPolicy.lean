import Clearance.FieldPolicy
import Clearance.Proofs.Run
import Clearance.Proofs.Value.Names

/-! Which field requirements are accepted.

A field is configured with an object or with a mapping. Either way it is accepted when
it says nothing about other kinds than the three that a field can refine, and for each of
these requires nothing, everything to be denied, or a declared credential. Whatever else
stands there is refused, unless reading trips over it: over unknown kinds without an order, or
over a value that the refusal cannot write out (`rejectsUnless_read`). -/
namespace Clearance

theorem FieldKind.named?_eq_some_iff {s : String} {k : FieldKind} :
    named? s = some k ↔ s = k.name := by
  constructor
  · intro h
    have hname := List.find?_some h
    exact (beq_iff_eq.mp hname).symm
  · rintro rfl
    exact named?_name k

namespace FieldPolicy

/-! ## What is accepted -/

/-- A requirement that means something. -/
def Allowed (declared : String → Prop) (v : Value) : Prop :=
  v = .null ∨ v = .forbidden ∨ v = .bool false ∨ ∃ s, v.text? = some s ∧ declared s

/-- What a field can be configured with: an object or a mapping. -/
def Shaped (spec : Value) : Prop :=
  (∃ d, FieldDraft.ofValue? spec = some d) ∨ ∃ entries, spec.entries? = some entries

/-- What a field is configured with in code: an object, or a mapping whose keys are texts. -/
def TypedSpec (spec : Value) : Prop :=
  (∃ d, FieldDraft.ofValue? spec = some d) ∨
    ∃ entries, spec.entries? = some entries ∧ ∀ e ∈ entries, e.1.IsName

/-- A mapping has no keys but the kinds that a field can refine. -/
def OnlyKinds (spec : Value) : Prop :=
  ∀ entries, spec.entries? = some entries → ∀ e ∈ entries, ∃ k : FieldKind, e.1.text? = some k.name

/-- The requirement that is stated for a kind, or null. -/
def stated (spec : Value) (kind : FieldKind) : Value :=
  match FieldDraft.ofValue? spec with
  | some d => d.get kind
  | none => Value.orNull (Value.at? (.text kind.name) (spec.entries?.getD []))

/-- A field that is accepted with what it is configured with. -/
structure Fits (declared : String → Prop) (field spec : Value) : Prop where
  titled : field.word ≠ ""
  kinds : OnlyKinds spec
  requirements : ∀ kind, Allowed declared (stated spec kind)

/-! ## What reading trips over -/

/-- A field that is a text, and not empty. -/
def Titled (field : Value) : Prop :=
  field.IsName ∧ field.word ≠ ""

/-- The keys of a mapping that are not kinds which a field can refine. -/
def unknownKinds (spec : Value) : List Value :=
  ((spec.entries?.getD []).map Prod.fst).filter fun key => (key.text?.bind FieldKind.named?).isNone

/-- The requirements are allowed up to one that cannot be written out. -/
def Unwritable (declared : String → Prop) (spec : Value) : Prop :=
  StopsIn (fun kind => Allowed declared (stated spec kind))
    (fun kind => (stated spec kind).writable = false) FieldKind.all

/-- How reading what a field is configured with fails when it is not refused. -/
inductive Spoils (spec : Value) : Failure → Prop
  | unordered (h : Value.comparable (unknownKinds spec) = false) : Spoils spec .mismatch
  | unwritableKind {kind : Value} (h : Value.comparable (unknownKinds spec) = true)
    (hkind : kind ∈ unknownKinds spec) (hwritable : kind.writable = false) :
    Spoils spec .illFormed
  | unwritableSpec (h : ¬ Shaped spec) (hwritable : spec.writable = false) :
    Spoils spec .illFormed

/-- How reading a field fails when it is not refused. -/
inductive Trips (declared : String → Prop) (field spec : Value) : Failure → Prop
  | field (hwritable : field.writable = false) : Trips declared field spec .illFormed
  | spec {f : Failure} (h : Titled field) (hspec : Spoils spec f) : Trips declared field spec f
  | requirement (h : Titled field) (hshaped : Shaped spec) (hkinds : OnlyKinds spec)
    (hwritable : Unwritable declared spec) : Trips declared field spec .illFormed

/-! ## When reading succeeds -/

/-- A test that tells of every name whether it is declared. -/
def Tells (known : Known) (declared : String → Prop) : Prop :=
  ∀ v : Value, v.IsName → ∃ b, known v = .ok b ∧ (b = true ↔ declared v.word)

variable {declared : String → Prop} {known : Known} {owner field : Value}

/-- **One requirement.** -/
theorem rejectsUnless_readRequirement (hknown : Tells known declared)
    (howner : owner.writable = true) (hfield : field.writable = true) (kind : FieldKind)
    (v : Value) :
    RejectsUnless .invalidFieldPolicy (Allowed declared v)
      (readRequirement owner known field kind v) (Sticks (v.writable = false)) := by
  unfold readRequirement
  split
  · exact (rejectsUnless_ok (.inl rfl)).congr Iff.rfl fun f => by simp [Sticks]
  · exact (rejectsUnless_ok (.inr (.inl rfl))).congr Iff.rfl fun f => by
      simp [Sticks, Value.writable]
  · exact (rejectsUnless_ok (.inr (.inr (.inl rfl)))).congr Iff.rfl fun f => by
      simp [Sticks, Value.writable]
  · rename_i hnull hforbidden hfalse
    split
    · rename_i htext
      refine rejectsUnless_refuse ?_ rfl (by simp [Rejection.written, howner, hfield])
      rintro (rfl | rfl | rfl | ⟨s, hs, -⟩)
      · exact hnull rfl
      · exact hforbidden rfl
      · exact hfalse rfl
      · rw [htext] at hs
        cases hs
    · rename_i s hs
      obtain ⟨hname, hword⟩ := Value.text?_eq_some_iff.mp hs
      obtain ⟨b, hb, hiff⟩ := hknown v hname
      have hallowed : Allowed declared v ↔ b = true := by
        rw [hiff, hword]
        constructor
        · rintro (rfl | rfl | rfl | ⟨s', hs', hdeclared⟩)
          · cases hs
          · cases hs
          · cases hs
          · cases hs.symm.trans hs'
            exact hdeclared
        · exact fun hdeclared => .inr (.inr (.inr ⟨s, hs, hdeclared⟩))
      have hnever : ∀ f, False ↔ Sticks (v.writable = false) f := fun f => by
        simp [Sticks, hname.writable]
      simp only [hb, bind, Except.bind]
      cases b with
      | true => exact (rejectsUnless_ok (hallowed.mpr rfl)).congr Iff.rfl hnever
      | false =>
        rw [if_neg Bool.false_ne_true]
        refine RejectsUnless.congr (rejectsUnless_error ?_ rfl ?_) Iff.rfl hnever
        · exact fun h => by simpa using hallowed.mp h
        · simp [Rejection.written, howner, hfield, hname.writable]

/-- Nothing is said about other kinds when no key is left over. -/
theorem onlyKinds_iff {spec : Value} : OnlyKinds spec ↔ unknownKinds spec = [] := by
  rw [OnlyKinds, unknownKinds, List.filter_eq_nil_iff]
  cases spec.entries? with
  | none => simp
  | some entries =>
    simp only [Option.some.injEq, forall_eq', Option.getD_some, List.forall_mem_map]
    refine forall₂_congr fun e _ => ?_
    simp [← Option.isSome_iff_ne_none, Option.isSome_iff_exists, FieldKind.named?_eq_some_iff]

/-- An object is no mapping. -/
theorem entries?_of_object {spec : Value} {d : FieldDraft}
    (hobject : FieldDraft.ofValue? spec = some d) : spec.entries? = none := by
  cases spec <;> first | rfl | cases hobject

/-- A draft says what is stated. -/
theorem get_of_draft {spec : Value} {d : FieldDraft} (h : draft owner field spec = .ok d)
    (kind : FieldKind) : d.get kind = stated spec kind := by
  cases hobject : FieldDraft.ofValue? spec with
  | some shown =>
    simp only [draft, hobject] at h
    cases h
    simp only [stated, hobject]
  | none =>
    cases hentries : spec.entries? with
    | none =>
      simp only [draft, hobject, hentries] at h
      exact absurd h refuse_ne_ok
    | some entries =>
      simp only [draft, hobject, hentries] at h
      obtain ⟨sorted, -, h⟩ := bind_eq_ok_iff.mp h
      cases sorted with
      | cons first rest => exact absurd h refuse_ne_ok
      | nil =>
        cases h
        simp only [stated, hobject, hentries, Option.getD_some]
        cases kind <;> rfl

/-! ## How drafts spoil -/

theorem unknownKinds_of_not_mapping {spec : Value} (h : spec.entries? = none) :
    unknownKinds spec = [] := by
  rw [unknownKinds, h]
  rfl

theorem spoils_iff_of_unordered {spec : Value} {f : Failure} (hshaped : Shaped spec)
    (hordered : Value.comparable (unknownKinds spec) = false) :
    f = .mismatch ↔ Spoils spec f := by
  constructor
  · rintro rfl
    exact .unordered hordered
  · rintro (_ | ⟨h, -, -⟩ | ⟨h, -⟩)
    · rfl
    · cases hordered.symm.trans h
    · exact absurd hshaped h

theorem spoils_iff_of_ordered {spec : Value} {f : Failure} (hshaped : Shaped spec)
    (hordered : Value.comparable (unknownKinds spec) = true) :
    Sticks (∃ kind ∈ unknownKinds spec, kind.writable = false) f ↔ Spoils spec f := by
  constructor
  · rintro ⟨rfl, kind, hkind, hwritable⟩
    exact .unwritableKind hordered hkind hwritable
  · rintro (h | ⟨-, hkind, hwritable⟩ | ⟨h, -⟩)
    · cases hordered.symm.trans h
    · exact ⟨rfl, _, hkind, hwritable⟩
    · exact absurd hshaped h

theorem spoils_iff_of_not_shaped {spec : Value} {f : Failure} (hshaped : ¬ Shaped spec) :
    Sticks (spec.writable = false) f ↔ Spoils spec f := by
  have hnone : unknownKinds spec = [] := by
    refine unknownKinds_of_not_mapping (Option.eq_none_iff_forall_ne_some.mpr ?_)
    exact fun entries hentries => hshaped (.inr ⟨entries, hentries⟩)
  constructor
  · rintro ⟨rfl, hwritable⟩
    exact .unwritableSpec hshaped hwritable
  · rintro (h | ⟨-, h, -⟩ | ⟨-, hwritable⟩)
    · rw [hnone] at h
      cases h
    · rw [hnone] at h
      cases h
    · exact ⟨rfl, hwritable⟩

/-! ## How fields trip -/

theorem trips_iff_of_not_name {spec : Value} {f : Failure} (hname : ¬ field.IsName) :
    Sticks (field.writable = false) f ↔ Trips declared field spec f := by
  constructor
  · rintro ⟨rfl, hwritable⟩
    exact .field hwritable
  · rintro (hwritable | ⟨h, -⟩ | ⟨h, -⟩)
    · exact ⟨rfl, hwritable⟩
    · exact absurd h.1 hname
    · exact absurd h.1 hname

theorem not_trips_of_untitled {spec : Value} {f : Failure} (hname : field.IsName)
    (htitle : field.word = "") : ¬ Trips declared field spec f := by
  rintro (h | ⟨h, -⟩ | ⟨h, -⟩)
  · cases hname.writable.symm.trans h
  · exact h.2 htitle
  · exact h.2 htitle

theorem trips_iff_of_titled {spec : Value} {f : Failure} (htitle : Titled field) :
    Spoils spec f ∨ (Shaped spec ∧ OnlyKinds spec) ∧ Sticks (Unwritable declared spec) f ↔
      Trips declared field spec f := by
  constructor
  · rintro (h | ⟨⟨hshaped, hkinds⟩, rfl, h⟩)
    · exact .spec htitle h
    · exact .requirement htitle hshaped hkinds h
  · rintro (h | ⟨-, h⟩ | ⟨-, hshaped, hkinds, h⟩)
    · cases htitle.1.writable.symm.trans h
    · exact .inl h
    · exact .inr ⟨⟨hshaped, hkinds⟩, rfl, h⟩

/-! ## What reading refuses -/

/-- A mapping is read exactly when it says nothing about other kinds. -/
theorem rejectsUnless_draft_of_entries (howner : owner.writable = true)
    (hfield : field.writable = true) {spec : Value} {entries : List (Value × Value)}
    (hmapping : FieldDraft.ofValue? spec = none) (hentries : spec.entries? = some entries) :
    RejectsUnless .invalidFieldPolicy (OnlyKinds spec) (draft owner field spec) (Spoils spec) := by
  have hshaped : Shaped spec := .inr ⟨entries, hentries⟩
  have hunknown : ((entries.map Prod.fst).filter fun key =>
      (key.text?.bind FieldKind.named?).isNone) = unknownKinds spec := by
    rw [unknownKinds, hentries]
    rfl
  unfold draft
  simp only [hmapping, hentries, hunknown, onlyKinds_iff]
  cases hordered : Value.comparable (unknownKinds spec) with
  | false =>
    rw [Value.sort?, hordered]
    refine (rejectsUnless_escaped ?_).congr Iff.rfl fun f =>
      spoils_iff_of_unordered hshaped hordered
    intro hnil
    rw [hnil] at hordered
    cases hordered
  | true =>
    have hspoils := fun f => spoils_iff_of_ordered (f := f) hshaped hordered
    have hperm := List.mergeSort_perm (unknownKinds spec) Value.staysBefore
    rw [Value.sort?, hordered]
    simp only [if_true, orMismatch, bind, Except.bind]
    cases hsorted : (unknownKinds spec).mergeSort Value.staysBefore with
    | nil =>
      rw [hsorted] at hperm
      rw [← hperm.nil_eq] at hspoils ⊢
      exact (rejectsUnless_ok rfl).congr Iff.rfl fun f => by simp [← hspoils, Sticks]
    | cons first rest =>
      rw [hsorted] at hperm
      refine RejectsUnless.congr (rejectsUnless_refuse ?_ rfl ?_) Iff.rfl hspoils
      · intro hnil
        rw [hnil] at hperm
        cases hperm.eq_nil
      · simp only [Rejection.written, List.mem_cons, ← hperm.mem_iff (a := _), exists_eq_or_imp,
          howner, hfield, Bool.true_eq_false, false_or]

/-- What a field is configured with can be read exactly when it is an object or a mapping that
says nothing about other kinds. -/
theorem rejectsUnless_draft (howner : owner.writable = true) (hfield : field.writable = true)
    (spec : Value) :
    RejectsUnless .invalidFieldPolicy (Shaped spec ∧ OnlyKinds spec) (draft owner field spec)
      (Spoils spec) := by
  cases hobject : FieldDraft.ofValue? spec with
  | some d =>
    have hshaped : Shaped spec := .inl ⟨d, hobject⟩
    have hnone := unknownKinds_of_not_mapping (entries?_of_object hobject)
    have hspoils := fun f => spoils_iff_of_ordered (f := f) hshaped (by rw [hnone]; rfl)
    rw [draft, hobject]
    refine (rejectsUnless_ok ⟨hshaped, onlyKinds_iff.mpr hnone⟩).congr Iff.rfl fun f => ?_
    simp [← hspoils, hnone, Sticks]
  | none =>
    cases hentries : spec.entries? with
    | some entries =>
      exact (rejectsUnless_draft_of_entries howner hfield hobject hentries).congr
        (and_iff_right (.inr ⟨entries, hentries⟩)).symm fun _ => Iff.rfl
    | none =>
      have hshaped : ¬ Shaped spec := by simp [Shaped, hobject, hentries]
      rw [draft, hobject, hentries]
      exact RejectsUnless.congr (rejectsUnless_refuse (fun h => hshaped h.1) rfl
        (S := spec.writable = false) (by simp [Rejection.written, howner, hfield])) Iff.rfl
        fun _ => spoils_iff_of_not_shaped hshaped

/-- The three requirements of a draft, one after the other. -/
theorem rejectsUnless_requirements (hknown : Tells known declared)
    (howner : owner.writable = true) (hfield : field.writable = true) (d : FieldDraft) :
    RejectsUnless .invalidFieldPolicy (∀ kind, Allowed declared (d.get kind)) (do
      let view ← readRequirement owner known field .view d.view
      let create ← readRequirement owner known field .create d.create
      let edit ← readRequirement owner known field .edit d.edit
      pure (FieldPolicy.mk field view create edit))
      (Sticks (StopsIn (fun kind => Allowed declared (d.get kind))
        (fun kind => (d.get kind).writable = false) FieldKind.all)) := by
  have hone := rejectsUnless_readRequirement hknown howner hfield
  refine RejectsUnless.congr ((hone .view d.view).bind fun _ _ =>
    (hone .create d.create).bind fun _ _ =>
      (hone .edit d.edit).bind fun _ _ => rejectsUnless_ok trivial) ?_ fun f => ?_
  · constructor
    · rintro ⟨hview, hcreate, hedit, -⟩ kind
      cases kind with
      | view => exact hview
      | create => exact hcreate
      | edit => exact hedit
    · exact fun hall => ⟨hall .view, hall .create, hall .edit, trivial⟩
  · simp only [FieldKind.all, stopsIn_cons, not_stopsIn_nil, sticks_or_and, and_false, or_false,
      FieldDraft.get]

/-- **One field.** It is accepted exactly when it fits, and refused unless reading trips. -/
theorem rejectsUnless_read (hknown : Tells known declared) (howner : owner.writable = true)
    (field spec : Value) :
    RejectsUnless .invalidFieldPolicy (field.IsName ∧ Shaped spec ∧ Fits declared field spec)
      (read owner known field spec) (Trips declared field spec) := by
  unfold read
  split
  · rename_i htext
    have hname : ¬ field.IsName := by simp [Value.IsName, htext]
    exact RejectsUnless.congr (rejectsUnless_refuse (fun h => hname h.1) rfl
      (S := field.writable = false) (by simp [Rejection.written, howner])) Iff.rfl
      fun _ => trips_iff_of_not_name hname
  · rename_i title htext
    obtain ⟨hname, rfl⟩ := Value.text?_eq_some_iff.mp htext
    have hwritable := hname.writable
    split
    · rename_i hempty
      have htitle : field.word = "" := by simpa using hempty
      exact RejectsUnless.congr (rejectsUnless_error (fun h => h.2.2.titled htitle) rfl
        (by simp [Rejection.written, howner, hwritable])) Iff.rfl
        fun _ => iff_of_false id (not_trips_of_untitled hname htitle)
    · rename_i htitled
      have htitle : Titled field := ⟨hname, by simpa using htitled⟩
      have hstages := (rejectsUnless_draft howner hwritable spec).bind fun d hd =>
        (rejectsUnless_requirements hknown howner hwritable d).congr
          (forall_congr' fun kind => iff_of_eq (congrArg (Allowed declared) (get_of_draft hd kind)))
          fun f => by simp only [get_of_draft hd]; exact Iff.rfl
      refine hstages.congr ?_ fun _ => trips_iff_of_titled htitle
      exact ⟨fun h => ⟨hname, h.1.1, htitle.2, h.1.2, h.2⟩,
        fun h => ⟨⟨h.2.1, h.2.2.kinds⟩, h.2.2.requirements⟩⟩

/-- **All fields.** They are accepted exactly when each of them is. -/
theorem rejectsUnless_readAll (hknown : Tells known declared) (howner : owner.writable = true)
    {fields : Value} {entries : List (Value × Value)} (hentries : fields.entries? = some entries) :
    RejectsUnless .invalidFieldPolicy
      (∀ e ∈ entries, e.1.IsName ∧ Shaped e.2 ∧ Fits declared e.1 e.2) (readAll owner known fields)
      (fun f => StopsIn (fun e => e.1.IsName ∧ Shaped e.2 ∧ Fits declared e.1 e.2)
        (fun e => Trips declared e.1 e.2 f) entries) := by
  unfold readAll
  rw [hentries]
  exact rejectsUnless_mapM fun e _ => rejectsUnless_read hknown howner e.1 e.2

/-! ## Fields as they are written in code -/

theorem TypedSpec.shaped {spec : Value} (h : TypedSpec spec) : Shaped spec :=
  h.imp id fun ⟨entries, hentries, _⟩ => ⟨entries, hentries⟩

theorem TypedSpec.isName_of_mem {spec : Value} (h : TypedSpec spec) :
    ∀ v ∈ unknownKinds spec, v.IsName := by
  intro v hv
  obtain ⟨hmem, -⟩ := List.mem_filter.mp hv
  obtain ⟨d, hd⟩ | ⟨entries, hentries, hkeys⟩ := h
  · rw [entries?_of_object hd] at hmem
    cases hmem
  · rw [hentries] at hmem
    obtain ⟨e, he, rfl⟩ := List.mem_map.mp hmem
    exact hkeys e he

/-- Reading a field that is written in code trips over a requirement alone. -/
theorem trips_iff_of_typed {spec : Value} (hfield : field.IsName) (hspec : TypedSpec spec)
    {f : Failure} : Trips declared field spec f ↔
      Sticks (field.word ≠ "" ∧ OnlyKinds spec ∧ Unwritable declared spec) f := by
  constructor
  · rintro (h | ⟨-, h⟩ | ⟨htitle, -, hkinds, hwritable⟩)
    · cases hfield.writable.symm.trans h
    · rcases h with h | ⟨-, hkind, h⟩ | ⟨h, -⟩
      · cases (Value.comparable_of_names hspec.isName_of_mem).symm.trans h
      · cases (hspec.isName_of_mem _ hkind).writable.symm.trans h
      · exact absurd hspec.shaped h
    · exact ⟨rfl, htitle.2, hkinds, hwritable⟩
  · rintro ⟨rfl, htitle, hkinds, hwritable⟩
    exact .requirement ⟨hfield, htitle⟩ hspec.shaped hkinds hwritable

end FieldPolicy

end Clearance
