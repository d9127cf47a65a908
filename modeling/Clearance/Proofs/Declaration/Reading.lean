import Clearance.Declaration.Reading
import Clearance.Proofs.Checked
import Clearance.Proofs.Declaration.Fingerprint

/-! Declarations that were read are proper.

Reading a section leaves no credential and no field twice, no half of a character in a text,
and only texts for the names of required credentials. -/
namespace Clearance

theorem text_of_readRequirement {v name : Value}
    (h : readRequirement v = .fits (.credential name)) : ∃ s, name = .text s := by
  unfold readRequirement at h
  split at h
  · cases h
    exact ⟨_, rfl⟩
  · cases h
  · cases h
  · split at h <;> cases h

/-- What a field requires for a kind is what is read of that kind. -/
theorem FieldRequirements.part_of_read {body : Section} {r : FieldRequirements}
    (h : FieldRequirements.read body = .fits r) (kind : FieldKind) :
    body.optional kind.name .free readRequirement = .fits (r.get kind) := by
  unfold FieldRequirements.read at h
  obtain ⟨f, edit, hf, hedit, rfl⟩ := Checked.seq_eq_fits_iff.mp (Section.of_only h)
  obtain ⟨g, create, hg, hcreate, rfl⟩ := Checked.seq_eq_fits_iff.mp hf
  obtain ⟨view, hview, rfl⟩ := Checked.map_eq_fits_iff.mp hg
  cases kind with
  | view => exact hview
  | create => exact hcreate
  | edit => exact hedit

theorem FieldRequirements.texts_of_read {body : Section} {r : FieldRequirements}
    (h : FieldRequirements.read body = .fits r) {kind : FieldKind} {name : Value}
    (hname : r.get kind = .credential name) : ∃ s, name = .text s := by
  rcases Section.optional_cases (part_of_read h kind) with habsent | ⟨v, hv⟩
  · cases hname.symm.trans habsent
  · exact text_of_readRequirement (hv.trans (congrArg Checked.fits hname))

namespace CredentialBody

/-- The names that a body lists under a relation. -/
def names (b : CredentialBody) : Relation → List String
  | .implies => b.implies
  | .impliedBy => b.impliedBy
  | .subrights => b.subrights
  | .subrightOf => b.subrightOf

/-- Every part of a body is read of its own key. -/
structure Parts (b : CredentialBody) (body : Section) : Prop where
  label : body.optional (labelKey body) none (readOptional readCaption) = .fits b.label
  description : body.optional "description" none (readOptional readCaption) = .fits b.description
  names : ∀ r : Relation, body.optional r.name [] readNames = .fits (b.names r)

theorem parts_of_read {body : Section} {b : CredentialBody} (h : read body = .fits b) :
    b.Parts body := by
  unfold read at h
  obtain ⟨f, subrightOf, hf, hsubrightOf, rfl⟩ := Checked.seq_eq_fits_iff.mp (Section.of_only h)
  obtain ⟨g, subrights, hg, hsubrights, rfl⟩ := Checked.seq_eq_fits_iff.mp hf
  obtain ⟨k, impliedBy, hk, himpliedBy, rfl⟩ := Checked.seq_eq_fits_iff.mp hg
  obtain ⟨l, implies, hl, himplies, rfl⟩ := Checked.seq_eq_fits_iff.mp hk
  obtain ⟨m, description, hm, hdescription, rfl⟩ := Checked.seq_eq_fits_iff.mp hl
  obtain ⟨label, hlabel, rfl⟩ := Checked.map_eq_fits_iff.mp hm
  refine ⟨hlabel, hdescription, fun r => ?_⟩
  cases r with
  | implies => exact himplies
  | impliedBy => exact himpliedBy
  | subrights => exact hsubrights
  | subrightOf => exact hsubrightOf

theorem whole_of_readCaption {v : Value} {c : Option (Caption String)}
    (h : readOptional readCaption v = .fits c) (t : Text.Loose) : c ≠ some (.loose t) := by
  rintro rfl
  rcases readOptional_cases h with ⟨-, heq⟩ | ⟨c, heq, hread⟩
  · cases heq
  · cases heq
    obtain ⟨s, -, hs⟩ := Checked.map_eq_fits_iff.mp hread
    cases hs

theorem whole_of_optional {body : Section} {key : String} {c : Option (Caption String)}
    (h : body.optional key none (readOptional readCaption) = .fits c) (t : Text.Loose) :
    c ≠ some (.loose t) := by
  rcases Section.optional_cases h with rfl | ⟨v, hv⟩
  · nofun
  · exact whole_of_readCaption hv t

theorem whole_of_read {body : Section} {b : CredentialBody} (h : read body = .fits b) :
    b.Whole :=
  ⟨whole_of_optional (parts_of_read h).label, whole_of_optional (parts_of_read h).description⟩

end CredentialBody

namespace Declaration

/-- Every part of a declaration is read of its own key. -/
structure Parts (d : Declaration) (body : Section) : Prop where
  entityType : body.required "entity_type" readFilledText = .fits d.entityType
  credentials : body.optional "credentials" []
    (readMapping (readOptional (readSection CredentialBody.read))) = .fits d.credentials
  fields : body.optional "fields" [] (readMapping (readSection FieldRequirements.read)) =
    .fits d.fields
  softDelete : body.optional "soft_delete" false readFlag = .fits d.softDelete
  includeDefaults : body.optional "include_defaults" true readFlag = .fits d.includeDefaults
  strict : body.optional "strict" none (readOptional readFlag) = .fits d.strict

theorem parts_of_read {body : Section} {d : Declaration} (h : read body = .fits d) :
    d.Parts body := by
  unfold read at h
  obtain ⟨f₅, strict, h₅, hstrict, rfl⟩ := Checked.seq_eq_fits_iff.mp (Section.of_only h)
  obtain ⟨f₄, includeDefaults, h₄, hincludeDefaults, rfl⟩ := Checked.seq_eq_fits_iff.mp h₅
  obtain ⟨f₃, softDelete, h₃, hsoftDelete, rfl⟩ := Checked.seq_eq_fits_iff.mp h₄
  obtain ⟨f₂, fields, h₂, hfields, rfl⟩ := Checked.seq_eq_fits_iff.mp h₃
  obtain ⟨f₁, credentials, h₁, hcredentials, rfl⟩ := Checked.seq_eq_fits_iff.mp h₂
  obtain ⟨entityType, hentityType, rfl⟩ := Checked.map_eq_fits_iff.mp h₁
  exact ⟨hentityType, hcredentials, hfields, hsoftDelete, hincludeDefaults, hstrict⟩

/-- **What was read is proper.** -/
theorem proper_of_read {body : Section} {d : Declaration} (h : read body = .fits d) :
    d.Proper := by
  obtain ⟨-, hcredentials, hfields, -⟩ := parts_of_read h
  refine ⟨?_, ?_, ?_, ?_⟩
  · rcases Section.optional_cases hcredentials with hnone | ⟨v, hv⟩
    · simp [hnone]
    · exact (nodup_of_readMapping hv).1
  · rcases Section.optional_cases hcredentials with hnone | ⟨v, hv⟩
    · simp [hnone]
    · intro e he b hb
      obtain ⟨w, hw⟩ := (nodup_of_readMapping hv).2 e he
      rcases readOptional_cases hw with ⟨-, hnone⟩ | ⟨b', hb', hsection⟩
      · cases hnone.symm.trans hb
      · cases hb'.symm.trans hb
        obtain ⟨body, -, hbody⟩ := exists_of_readSection hsection
        exact CredentialBody.whole_of_read hbody
  · rcases Section.optional_cases hfields with hnone | ⟨v, hv⟩
    · simp [hnone]
    · exact (nodup_of_readMapping hv).1
  · rcases Section.optional_cases hfields with hnone | ⟨v, hv⟩
    · simp [hnone]
    · intro e he kind name hname
      obtain ⟨w, hw⟩ := (nodup_of_readMapping hv).2 e he
      obtain ⟨entry, -, hentry⟩ := exists_of_readSection hw
      exact FieldRequirements.texts_of_read hentry hname

end Declaration

end Clearance
