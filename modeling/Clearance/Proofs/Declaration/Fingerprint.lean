import Clearance.Declaration
import Clearance.Proofs.Json.Reading
import Mathlib.Data.List.Nodup
import Mathlib.Data.List.Perm.Basic

/-! A fingerprint determines what a declaration says.

The fingerprint is the compact text of a tree without numbers. Where no half of a
character stands alone in it, equal fingerprints come from equal trees. A tree forgets
the order in which credentials and fields are written (`fingerprint_eq_of_sameContent`)
and nothing else: every part of a declaration is read back from it
(`sameContent_of_fingerprint_eq`). -/
namespace Clearance

/-- The texts of a body hold no half of a character. -/
structure CredentialBody.Whole (b : CredentialBody) : Prop where
  label : ∀ t, b.label ≠ some (.loose t)
  description : ∀ t, b.description ≠ some (.loose t)

namespace Declaration

/-- What a declaration is promised to be: no credential and no field is written
twice, no text holds half of a character, and requirements name credentials by texts.
Reading a section leaves no other declarations (`proper_of_read`). -/
structure Proper (d : Declaration) : Prop where
  credentials : (d.credentials.map Prod.fst).Nodup
  bodies : ∀ e ∈ d.credentials, ∀ b ∈ e.2, b.Whole
  fields : (d.fields.map Prod.fst).Nodup
  requirements : ∀ e ∈ d.fields, ∀ kind name, e.2.get kind = .credential name →
    ∃ s, name = .text s

/-- Two declarations say the same, in whatever order. -/
structure SameContent (d d' : Declaration) : Prop where
  entityType : d.entityType = d'.entityType
  credentials : d.credentials.Perm d'.credentials
  fields : d.fields.Perm d'.fields
  softDelete : d.softDelete = d'.softDelete
  includeDefaults : d.includeDefaults = d'.includeDefaults
  strict : d.strict = d'.strict

/-! ## Reading the parts of a tree back -/

/-- The texts of an array. -/
def textsOf (j : Json) : List String :=
  j.items.filterMap Json.text?

@[simp] theorem textsOf_ofNames (names : List String) : textsOf (Json.ofNames names) = names := by
  simp [textsOf, Json.ofNames, Json.items, List.filterMap_map, Function.comp_def, Json.text?]

/-- A caption from its tree. -/
def captionOf (j : Json) : Option (Caption String) :=
  j.text?.map Caption.given

theorem captionOf_ofCaption? {c : Option (Caption String)} (h : ∀ t, c ≠ some (.loose t)) :
    captionOf (Json.ofCaption? c) = c := by
  match c with
  | none => rfl
  | some (.given s) => rfl
  | some (.loose t) => exact absurd rfl (h t)

/-- The body of a credential from its tree. -/
def bodyOf : Json → Option CredentialBody
  | .null => none
  | j => some
    { label := captionOf (j.get "label")
      description := captionOf (j.get "description")
      implies := textsOf (j.get "implies")
      impliedBy := textsOf (j.get "implied_by")
      subrights := textsOf (j.get "subrights")
      subrightOf := textsOf (j.get "subright_of") }

theorem bodyOf_bodyJson {b : Option CredentialBody} (h : ∀ b' ∈ b, b'.Whole) :
    bodyOf (bodyJson b) = b := by
  cases b with
  | none => rfl
  | some b =>
    have hlabel := captionOf_ofCaption? (h b rfl).label
    have hdescription := captionOf_ofCaption? (h b rfl).description
    simp [bodyOf, bodyJson, Json.get, Json.get?, List.lookup_cons, hlabel, hdescription]

/-- A requirement from its tree. -/
def requirementOf : Json → Requirement
  | .bool _ => .forbidden
  | .text s => .credential (.text s)
  | _ => .free

/-- The requirements on a field from their tree. -/
def requirementsOf (j : Json) : FieldRequirements where
  view := requirementOf (j.get "view")
  create := requirementOf (j.get "create")
  edit := requirementOf (j.get "edit")

theorem requirementOf_requirementJson {r : Requirement}
    (h : ∀ name, r = .credential name → ∃ s, name = .text s) :
    requirementOf (requirementJson r) = r := by
  cases r with
  | free => rfl
  | forbidden => rfl
  | credential name =>
    obtain ⟨s, rfl⟩ := h name rfl
    simp [requirementJson, requirementOf]

theorem requirementsOf_requirementsJson {r : FieldRequirements}
    (h : ∀ kind name, r.get kind = .credential name → ∃ s, name = .text s) :
    requirementsOf (requirementsJson r) = r := by
  have hview := requirementOf_requirementJson (h .view)
  have hcreate := requirementOf_requirementJson (h .create)
  have hedit := requirementOf_requirementJson (h .edit)
  cases r
  simp only [FieldRequirements.get] at hview hcreate hedit
  simp [requirementsOf, requirementsJson, Json.get, Json.get?, List.lookup_cons, hview, hcreate,
    hedit]

/-! ## Sorted fields -/

theorem sortedByKey_perm {α : Type} (entries : List (String × α)) :
    (sortedByKey entries).Perm entries :=
  List.mergeSort_perm _ _

/-- Entries that are turned into trees, sorted, and read back come out permuted. -/
theorem perm_of_sortedByKey_eq {α β : Type} {write : α → β} {read : β → α}
    {entries entries' : List (String × α)} (h : ∀ e ∈ entries, read (write e.2) = e.2)
    (h' : ∀ e ∈ entries', read (write e.2) = e.2)
    (heq : sortedByKey (entries.map fun e => (e.1, write e.2)) =
      sortedByKey (entries'.map fun e => (e.1, write e.2))) : entries.Perm entries' := by
  have hback : ∀ {es : List (String × α)}, (∀ e ∈ es, read (write e.2) = e.2) →
      (es.map fun e => (e.1, write e.2)).map (fun e => (e.1, read e.2)) = es := by
    intro es hes
    rw [List.map_map]
    refine (List.map_congr_left ?_).trans (List.map_id es)
    intro e he
    exact Prod.ext rfl (hes e he)
  have hperm : (entries.map fun e => (e.1, write e.2)).Perm
      (entries'.map fun e => (e.1, write e.2)) :=
    (sortedByKey_perm _).symm.trans (heq ▸ sortedByKey_perm _)
  have := hperm.map fun e => (e.1, read e.2)
  rwa [hback h, hback h'] at this

/-- Entries with distinct keys are sorted alike from every order. -/
theorem sortedByKey_eq_of_perm {α : Type} {entries entries' : List (String × α)}
    (h : entries.Perm entries') (hnodup : (entries.map Prod.fst).Nodup) :
    sortedByKey entries = sortedByKey entries' := by
  have hsorted : ∀ es : List (String × α), (sortedByKey es).Pairwise fun a b => a.1 ≤ b.1 := by
    intro es
    refine (List.pairwise_mergeSort ?_ ?_ es).imp fun hle => of_decide_eq_true hle
    · intro a b c hab hbc
      exact decide_eq_true (String.le_trans (of_decide_eq_true hab) (of_decide_eq_true hbc))
    · intro a b
      simpa using String.le_total a.1 b.1
  have hperm : (sortedByKey entries).Perm (sortedByKey entries') :=
    (sortedByKey_perm entries).trans (h.trans (sortedByKey_perm entries').symm)
  refine hperm.eq_of_pairwise ?_ (hsorted entries) (hsorted entries')
  intro a b ha hb hab hba
  have ha' : a ∈ entries := (sortedByKey_perm entries).mem_iff.mp ha
  have hb' : b ∈ entries := h.mem_iff.mpr ((sortedByKey_perm entries').mem_iff.mp hb)
  exact List.inj_on_of_nodup_map hnodup ha' hb' (String.le_antisymm hab hba)

/-! ## Trees of declarations are recovered from their texts -/

theorem fieldsRecoverable_iff {fields : List (String × Json)} :
    Json.fieldsRecoverable fields = true ↔ ∀ e ∈ fields, e.2.recoverable = true := by
  induction fields with
  | nil => simp [Json.fieldsRecoverable]
  | cons e rest ih => simp [Json.fieldsRecoverable, ih]

theorem allRecoverable_map_text (names : List String) :
    Json.allRecoverable (names.map Json.text) = true := by
  induction names with
  | nil => rfl
  | cons s rest ih => simpa [Json.allRecoverable, Json.recoverable] using ih

theorem recoverable_ofCaption? {c : Option (Caption String)} (h : ∀ t, c ≠ some (.loose t)) :
    (Json.ofCaption? c).recoverable = true := by
  match c with
  | none => rfl
  | some (.given s) => rfl
  | some (.loose t) => exact absurd rfl (h t)

theorem recoverable_bodyJson {b : Option CredentialBody} (h : ∀ b' ∈ b, b'.Whole) :
    (bodyJson b).recoverable = true := by
  have hnames : ∀ names, (Json.ofNames names).recoverable = true :=
    fun names => allRecoverable_map_text names
  cases b with
  | none => rfl
  | some b =>
    have hlabel := recoverable_ofCaption? (h b rfl).label
    have hdescription := recoverable_ofCaption? (h b rfl).description
    simp [bodyJson, Json.recoverable, Json.fieldsRecoverable, hlabel, hdescription, hnames]

theorem recoverable_requirementsJson (r : FieldRequirements) :
    (requirementsJson r).recoverable = true := by
  have hone : ∀ r : Requirement, (requirementJson r).recoverable = true := by
    intro r
    cases r <;> rfl
  simp [requirementsJson, Json.recoverable, Json.fieldsRecoverable, hone]

theorem recoverable_sorted {α : Type} {write : α → Json} {entries : List (String × α)}
    (h : ∀ e ∈ entries, (write e.2).recoverable = true) :
    Json.fieldsRecoverable (sortedByKey (entries.map fun e => (e.1, write e.2))) = true := by
  rw [fieldsRecoverable_iff]
  intro e he
  obtain ⟨e', he', rfl⟩ := List.mem_map.mp ((sortedByKey_perm _).mem_iff.mp he)
  exact h e' he'

theorem recoverable_toJson {d : Declaration} (h : d.Proper) : d.toJson.recoverable = true := by
  have hbodies := recoverable_sorted fun e he => recoverable_bodyJson (h.bodies e he)
  have hrequirements : Json.fieldsRecoverable
      (sortedByKey (d.fields.map fun e => (e.1, requirementsJson e.2))) = true :=
    recoverable_sorted fun e _ => recoverable_requirementsJson e.2
  have hstrict : ((d.strict.map Json.bool).getD .null).recoverable = true := by
    cases d.strict <;> rfl
  simp [toJson, Json.recoverable, Json.fieldsRecoverable, hbodies, hrequirements, hstrict]

/-- **Equal fingerprints mean equal content.** -/
theorem sameContent_of_fingerprint_eq {d d' : Declaration} (h : d.Proper) (h' : d'.Proper)
    (heq : d.fingerprint = d'.fingerprint) : d.SameContent d' := by
  have htree : d.toJson = d'.toJson :=
    Json.eq_of_render_eq (recoverable_toJson h) (recoverable_toJson h')
      (String.ofList_injective heq)
  simp only [toJson, Json.object.injEq, List.cons.injEq, Prod.mk.injEq, true_and, and_true,
    Json.text.injEq, Json.bool.injEq] at htree
  obtain ⟨hcredentials, hentity, hfields, hdefaults, hsoft, hstrict⟩ := htree
  have hinj : ∀ s t : Option Bool,
      (s.map Json.bool).getD .null = (t.map Json.bool).getD .null → s = t := by
    intro s t hst
    cases s <;> cases t <;> simp_all
  exact
    { entityType := hentity
      credentials := perm_of_sortedByKey_eq (fun e he => bodyOf_bodyJson (h.bodies e he))
        (fun e he => bodyOf_bodyJson (h'.bodies e he)) hcredentials
      fields := perm_of_sortedByKey_eq
        (fun e he => requirementsOf_requirementsJson (h.requirements e he))
        (fun e he => requirementsOf_requirementsJson (h'.requirements e he)) hfields
      softDelete := hsoft
      includeDefaults := hdefaults
      strict := hinj _ _ hstrict }

/-- **Equal content means equal fingerprints**, in whatever order it is written. -/
theorem fingerprint_eq_of_sameContent {d d' : Declaration} (hd : d.Proper)
    (h : d.SameContent d') : d.fingerprint = d'.fingerprint := by
  have hkeys : ∀ {α β : Type} (write : α → β) (entries : List (String × α)),
      (entries.map fun e => (e.1, write e.2)).map Prod.fst = entries.map Prod.fst := by
    intro α β write entries
    rw [List.map_map]
    rfl
  have hcredentials := sortedByKey_eq_of_perm (h.credentials.map fun e => (e.1, bodyJson e.2))
    (hkeys bodyJson d.credentials ▸ hd.credentials)
  have hfields := sortedByKey_eq_of_perm (h.fields.map fun e => (e.1, requirementsJson e.2))
    (hkeys requirementsJson d.fields ▸ hd.fields)
  rw [fingerprint, fingerprint, toJson, toJson, hcredentials, hfields, h.entityType,
    h.softDelete, h.includeDefaults, h.strict]

end Declaration

end Clearance
