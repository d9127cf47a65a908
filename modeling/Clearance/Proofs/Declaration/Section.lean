import Clearance.Proofs.Declaration.Reading
import Clearance.Proofs.Run
import Clearance.Proofs.Value.Json

/-! What is read from a section.

Reading keeps what a section says of credentials and of fields, and refuses a section that
says what a policy could not keep: a section that is read is sound (`Declaration.Sound`). A
section is refused with a configuration error that names its entity type. -/
namespace Clearance

/-! ## Requirements -/

/-- A requirement is the one that is given: forbidden for false, free for null and when
nothing is given, and otherwise the credential of that name. -/
structure Requirement.States (r : Requirement) (given : Option Value) : Prop where
  forbidden : r = .forbidden ↔ given = some (.bool false)
  free : r = .free ↔ given = none ∨ given = some .null
  credential : ∀ name, r = .credential name ↔ ∃ s, given = some (.text s) ∧ name = .text s

/-- A value that a field may require. -/
def Value.IsRequirement (v : Value) : Prop :=
  v = .null ∨ v = .bool false ∨ ∃ s, v = .text s

theorem states_of_readRequirement {v : Value} (h : v.IsJson) {r : Requirement}
    (hread : readRequirement v = .fits r) : v.IsRequirement ∧ r.States (some v) := by
  unfold readRequirement at hread
  split at hread
  · rename_i s htext
    cases hread
    cases h.eq_text htext
    exact ⟨.inr (.inr ⟨s, rfl⟩), by simp, by simp, by simp [eq_comm]⟩
  · cases hread
    exact ⟨.inl rfl, by simp, by simp, by simp⟩
  · cases hread
    exact ⟨.inr (.inl rfl), by simp, by simp, by simp⟩
  · split at hread <;> cases hread

theorem states_free : Requirement.free.States none :=
  ⟨by simp, by simp, by simp⟩

namespace FieldRequirements

/-- What a field is configured with is a mapping of requirements for the kinds that a field
can refine. -/
def Sound (spec : Section) : Prop :=
  spec.OnlyKeys (FieldKind.all.map FieldKind.name) ∧
    ∀ (kind : FieldKind) v, spec.get? kind.name = some v → v.IsRequirement

/-- **One field.** What is read is sound, and the requirements are the ones that are given. -/
theorem states_of_read {spec : Section} (h : spec.IsJson) {r : FieldRequirements}
    (hread : read spec = .fits r) :
    Sound spec ∧ ∀ kind, (r.get kind).States (spec.get? kind.name) := by
  have hkind : ∀ kind, (∀ v, spec.get? (FieldKind.name kind) = some v → v.IsRequirement) ∧
      (r.get kind).States (spec.get? kind.name) := by
    intro kind
    rcases Section.optional_eq_fits_iff.mp (part_of_read hread kind) with
      ⟨hnone, hfree⟩ | ⟨v, hv, hr⟩
    · simp [hnone, hfree, states_free]
    · have hstates := states_of_readRequirement (Section.isJson_of_get? h hv) hr
      simp [hv, hstates]
  exact ⟨⟨Section.onlyKeys_of_only hread, fun kind => (hkind kind).1⟩, fun kind => (hkind kind).2⟩

end FieldRequirements

/-! ## Credentials -/

namespace CredentialBody

/-- The body of a credential has two texts and lists of names for its relations. -/
def Sound (body : Section) : Prop :=
  body.OnlyKeys ([labelKey body, "description"] ++ Relation.all.map Relation.name) ∧
    ∀ (r : Relation) v, body.get? r.name = some v → ∃ names, v = Value.ofNames names

/-- **One credential.** What is read is sound, and lists the names that are given. -/
theorem names_of_read {body : Section} (h : body.IsJson) {b : CredentialBody}
    (hread : read body = .fits b) : Sound body ∧ ∀ (r : Relation) names,
      body.get? r.name = some (Value.ofNames names) → b.names r = names := by
  have hrelation : ∀ (r : Relation) v, body.get? r.name = some v →
      v = Value.ofNames (b.names r) := by
    intro r v hv
    rcases Section.optional_eq_fits_iff.mp ((parts_of_read hread).names r) with
      ⟨hnone, -⟩ | ⟨w, hw, hnames⟩
    · cases hnone.symm.trans hv
    · cases hv.symm.trans hw
      exact eq_ofNames_of_readNames (Section.isJson_of_get? h hv) hnames
  refine ⟨⟨Section.onlyKeys_of_only hread, fun r v hv => ⟨_, hrelation r v hv⟩⟩, ?_⟩
  intro r names hnames
  have heq := hrelation r _ hnames
  rw [Value.ofNames, Value.ofNames, Value.list.injEq] at heq
  exact (List.map_injective_iff.mpr (fun _ _ h => Value.text.inj h) heq).symm

end CredentialBody

/-! ## Sections -/

namespace Declaration

/-- The keys of a section. -/
def sectionKeys : List String :=
  ["entity_type", "credentials", "fields", "soft_delete", "include_defaults", "strict"]

/-- A section says nothing that its policy could not keep: it has no keys but known ones,
and neither have the bodies of its credentials and what its fields are configured with;
relations are lists of names; and a field requires a credential, nothing, or denial. -/
structure Sound (body : Section) : Prop where
  keys : body.OnlyKeys sectionKeys
  credentials : ∀ v, body.get? "credentials" = some v → ∃ entries, v = .dict entries ∧
    ∀ e ∈ entries, e.2 = .null ∨ ∃ c, e.2 = .dict c ∧ CredentialBody.Sound c
  fields : ∀ v, body.get? "fields" = some v → ∃ entries, v = .dict entries ∧
    ∀ e ∈ entries, ∃ spec, e.2 = .dict spec ∧ FieldRequirements.Sound spec

/-- What is declared of credentials and of fields is what stands in the section. -/
structure ReadFrom (d : Declaration) (body : Section) : Prop where
  credentials : ∀ v, body.get? "credentials" = some v →
    readMapping (readOptional (readSection CredentialBody.read)) v = .fits d.credentials
  fields : ∀ v, body.get? "fields" = some v →
    readMapping (readSection FieldRequirements.read) v = .fits d.fields

theorem readFrom_of_read {body : Section} {d : Declaration} (h : read body = .fits d) :
    body.OnlyKeys sectionKeys ∧ d.ReadFrom body := by
  have hpart : ∀ {α : Type} {key : String} {absent a : α} {read : Value → Checked α},
      body.optional key absent read = .fits a → ∀ v, body.get? key = some v → read v = .fits a := by
    intro α key absent a read hpart v hv
    rcases Section.optional_eq_fits_iff.mp hpart with ⟨hnone, -⟩ | ⟨w, hw, hread⟩
    · cases hnone.symm.trans hv
    · cases hv.symm.trans hw
      exact hread
  obtain ⟨-, hcredentials, hfields, -⟩ := parts_of_read h
  exact ⟨Section.onlyKeys_of_only h, hpart hcredentials, hpart hfields⟩

/-- The entity type that is added to a section changes nothing else. -/
theorem get?_withEntityType (entityType : Value) (body : Section) {key : String}
    (hkey : key ≠ "entity_type") : (withEntityType entityType body).get? key = body.get? key := by
  have hsame : Value.same (.text "entity_type") (.text key) = false := by
    rw [Value.same_of_names (Value.isName_text _) (Value.isName_text _)]
    simpa using hkey.symm
  unfold withEntityType
  split
  · rfl
  · rfl
  · simp [Section.get?, Value.at?, List.find?_append, hsame]

theorem optional_withEntityType (entityType : Value) (body : Section) {key : String}
    (hkey : key ≠ "entity_type") {α : Type} (absent : α) (read : Value → Checked α) :
    (withEntityType entityType body).optional key absent read = body.optional key absent read := by
  unfold Section.optional
  rw [get?_withEntityType entityType body hkey]

theorem onlyKeys_of_withEntityType {entityType : Value} {body : Section} {known : List String}
    (h : (withEntityType entityType body).OnlyKeys known) : body.OnlyKeys known := by
  unfold withEntityType at h
  split at h
  · exact h
  · exact h
  · exact fun e he => h e (List.mem_append_left _ he)

/-- The entity type that a section is read for. -/
def owner (entityType : Value) (body : Section) : Value :=
  Value.orNull ((withEntityType entityType body).get? "entity_type")

/-- A section that cannot be read is refused as a configuration error that names its entity
type, which therefore has to be one that can be written out. -/
theorem outcome_ofSection (entityType : Value) (body : Section) :
    (ofSection entityType body).outcome =
      match read (withEntityType entityType body) with
      | .fits d => .ok d
      | .faulty issues =>
        if (owner entityType body).writable then
          .error (.rejected (.invalidSection (owner entityType body) issues))
        else .error .illFormed := by
  unfold ofSection
  simp only
  cases hread : read (withEntityType entityType body) with
  | fits d => rfl
  | faulty issues =>
    simp only [Run.bind_eq, Run.outcome_andThen, Run.outcome_ofExcept, Run.outcome_reject]
    change (asWritten [owner entityType body] >>= fun _ =>
      refuse (.invalidSection (owner entityType body) issues)) = _
    split
    · rename_i howner
      rw [asWritten_of_writable (by simpa using howner)]
      exact refuse_of_writable (by simpa [Rejection.written] using howner)
    · rename_i howner
      rw [asWritten_of_unwritable List.mem_cons_self (Bool.not_eq_true _ ▸ howner)]
      rfl

theorem parse_of_entries? {data : Value} {body : Section} (h : data.entries? = some body)
    (entityType : Value) : parse entityType data = ofSection entityType body := by
  rw [parse, h]

theorem outcome_parse_of_none {data : Value} (h : data.entries? = none) (entityType : Value) :
    (parse entityType data).outcome =
      if entityType.writable then .error (.rejected (.sectionNotMapping entityType data))
      else .error .illFormed := by
  rw [parse, h, Run.outcome_reject]
  split
  · rename_i howner
    exact refuse_of_writable (by simpa [Rejection.written] using howner)
  · rename_i howner
    exact refuse_of_unwritable (v := entityType) List.mem_cons_self (Bool.not_eq_true _ ▸ howner)

section Parsing

variable {entityType : Value} {body : Section} {d : Declaration}

/-- What is parsed is a mapping. -/
theorem exists_entries_of_parse {data : Value} (h : (parse entityType data).outcome = .ok d) :
    ∃ body, data.entries? = some body := by
  cases hentries : data.entries? with
  | some body => exact ⟨body, rfl⟩
  | none =>
    rw [outcome_parse_of_none hentries] at h
    split at h <;> cases h

theorem read_of_parse {data : Value} (hbody : data.entries? = some body)
    (h : (parse entityType data).outcome = .ok d) :
    read (withEntityType entityType body) = .fits d := by
  rw [parse_of_entries? hbody, outcome_ofSection] at h
  split at h
  · rename_i d' hread
    cases h
    exact hread
  · split at h <;> cases h

theorem readFrom_of_parse (h : (parse entityType (.dict body)).outcome = .ok d) :
    body.OnlyKeys sectionKeys ∧ d.ReadFrom body ∧ d.Proper := by
  have hread := read_of_parse (Value.entries?_dict body) h
  obtain ⟨hkeys, hfrom⟩ := readFrom_of_read hread
  refine ⟨onlyKeys_of_withEntityType hkeys, ⟨?_, ?_⟩, proper_of_read hread⟩
  · rw [← get?_withEntityType entityType body (by decide)]
    exact hfrom.credentials
  · rw [← get?_withEntityType entityType body (by decide)]
    exact hfrom.fields

/-- A declared credential comes from an entry: it has no body, or one that is read. -/
theorem credentials_of_parse (hjson : body.IsJson)
    (h : (parse entityType (.dict body)).outcome = .ok d) {v : Value}
    (hv : body.get? "credentials" = some v) : ∃ entries, v = .dict entries ∧
      List.Forall₂ (fun e t => e.1 = .text t.1 ∧ ((e.2 = .null ∧ t.2 = none) ∨
        ∃ c b, e.2 = .dict c ∧ c.IsJson ∧ t.2 = some b ∧ CredentialBody.read c = .fits b))
        entries d.credentials := by
  obtain ⟨-, hfrom, -⟩ := readFrom_of_parse h
  obtain ⟨entries, rfl, hentries⟩ :=
    eq_dict_of_readMapping (Section.isJson_of_get? hjson hv) (hfrom.credentials v hv)
  refine ⟨entries, rfl, hentries.imp ?_⟩
  rintro e t ⟨hkey, hvalue, hread⟩
  refine ⟨hkey, ?_⟩
  rcases readOptional_cases hread with hnull | ⟨b, hb, hsection⟩
  · exact .inl hnull
  · obtain ⟨c, hc, hbody⟩ := eq_dict_of_readSection hvalue hsection
    rw [hc] at hvalue
    exact .inr ⟨c, b, hc, hvalue, hb, hbody⟩

/-- The requirements on a field come from an entry, and are the ones that are given there. -/
theorem fields_of_parse (hjson : body.IsJson)
    (h : (parse entityType (.dict body)).outcome = .ok d) {v : Value}
    (hv : body.get? "fields" = some v) : ∃ entries, v = .dict entries ∧
      List.Forall₂ (fun e t => e.1 = .text t.1 ∧ ∃ spec, e.2 = .dict spec ∧
        FieldRequirements.Sound spec ∧ ∀ kind, (t.2.get kind).States (spec.get? kind.name))
        entries d.fields := by
  obtain ⟨-, hfrom, -⟩ := readFrom_of_parse h
  obtain ⟨entries, rfl, hentries⟩ :=
    eq_dict_of_readMapping (Section.isJson_of_get? hjson hv) (hfrom.fields v hv)
  refine ⟨entries, rfl, hentries.imp ?_⟩
  rintro e t ⟨hkey, hvalue, hread⟩
  obtain ⟨spec, hspec, hfield⟩ := eq_dict_of_readSection hvalue hread
  rw [hspec] at hvalue
  obtain ⟨hsound, hstates⟩ := FieldRequirements.states_of_read hvalue hfield
  exact ⟨hkey, spec, hspec, hsound, hstates⟩

/-- **What is read is sound.** -/
theorem sound_of_parse (hjson : body.IsJson)
    (h : (parse entityType (.dict body)).outcome = .ok d) : Sound body where
  keys := (readFrom_of_parse h).1
  credentials v hv := by
    obtain ⟨entries, hdict, hentries⟩ := credentials_of_parse hjson h hv
    refine ⟨entries, hdict, fun e he => ?_⟩
    obtain ⟨t, -, -, hnull | ⟨c, b, hc, hcjson, -, hread⟩⟩ := exists_of_mem_forall₂ hentries he
    · exact .inl hnull.1
    · exact .inr ⟨c, hc, (CredentialBody.names_of_read hcjson hread).1⟩
  fields v hv := by
    obtain ⟨entries, hdict, hentries⟩ := fields_of_parse hjson h hv
    refine ⟨entries, hdict, fun e he => ?_⟩
    obtain ⟨t, -, -, spec, hspec, hsound, -⟩ := exists_of_mem_forall₂ hentries he
    exact ⟨spec, hspec, hsound⟩

end Parsing

end Declaration

end Clearance
