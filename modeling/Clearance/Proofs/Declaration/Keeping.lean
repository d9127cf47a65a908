import Clearance.Proofs.Declaration.Build
import Clearance.Proofs.Declaration.Section
import Clearance.Proofs.FieldPolicy

/-! What a section says is kept by its policy.

A section passes through two readers and the compiler before it is a policy. Nothing that
it declares is dropped or weakened on the way: the policy keeps all of it (`Policy.Keeps`). -/
namespace Clearance

/-! ## Requirements -/

namespace FieldPolicy

/-- The policy of a field has the requirements of its draft, each of them as it is read. -/
theorem requirement_of_read {owner : Value} {known : Known} {field spec : Value} {f : FieldPolicy}
    (h : read owner known field spec = .ok f) : ∃ d, draft owner field spec = .ok d ∧
      ∀ kind, readRequirement owner known field kind (d.get kind) = .ok (f.requirement kind) := by
  unfold read at h
  split at h
  · exact absurd h refuse_ne_ok
  · split at h
    · exact absurd h refuse_ne_ok
    · obtain ⟨d, hd, h⟩ := bind_eq_ok_iff.mp h
      obtain ⟨view, hview, h⟩ := bind_eq_ok_iff.mp h
      obtain ⟨create, hcreate, h⟩ := bind_eq_ok_iff.mp h
      obtain ⟨edit, hedit, h⟩ := bind_eq_ok_iff.mp h
      cases h
      refine ⟨d, hd, fun kind => ?_⟩
      cases kind with
      | view => exact hview
      | create => exact hcreate
      | edit => exact hedit

/-- A requirement is read back from its value. -/
theorem eq_of_readRequirement {owner : Value} {known : Known} {field : Value} {kind : FieldKind}
    {r r' : Requirement} (htext : ∀ name, r = .credential name → ∃ s, name = .text s)
    (h : readRequirement owner known field kind r.toValue = .ok r') : r' = r := by
  cases r with
  | free => exact (Except.ok.inj h).symm
  | forbidden => exact (Except.ok.inj h).symm
  | credential name =>
    obtain ⟨s, rfl⟩ := htext name rfl
    obtain ⟨b, -, h⟩ := bind_eq_ok_iff.mp h
    cases b with
    | false => exact absurd h refuse_ne_ok
    | true => exact (Except.ok.inj h).symm

/-- The requirements on a field are read back from their mapping. -/
theorem requirement_of_read_toValue {owner : Value} {known : Known} {field : Value}
    {r : FieldRequirements} (htexts : ∀ kind name, r.get kind = .credential name →
      ∃ s, name = .text s) {f : FieldPolicy} (h : read owner known field r.toValue = .ok f)
    (kind : FieldKind) : f.requirement kind = r.get kind := by
  obtain ⟨d, hd, hrequirement⟩ := requirement_of_read h
  have hget := get_of_draft hd kind
  have hstated : stated r.toValue kind = (r.get kind).toValue := by
    cases kind <;> simp [stated, FieldRequirements.toValue, FieldDraft.ofValue?, FieldKind.all,
      FieldKind.name, Value.at?, Value.same_of_names, Value.orNull]
  have hread := hrequirement kind
  rw [hget, hstated] at hread
  exact eq_of_readRequirement (htexts kind) hread

end FieldPolicy

/-! ## Relations -/

namespace CredentialBody

theorem relation_toCredential (b : CredentialBody) (name : String) (r : Relation) :
    (b.toCredential name).relation r = Value.tupleOfNames (b.names r) := by
  cases r <;> rfl

theorem lists_toCredential {b : CredentialBody} {name : String} {r : Relation} {s : String}
    (h : s ∈ b.names r) : (b.toCredential name).Lists r s :=
  ⟨(b.names r).map Value.text, by rw [relation_toCredential]; rfl, .text s,
    List.mem_map_of_mem h, rfl⟩

end CredentialBody

/-! ## Policies -/

namespace Policy

/-- A compiled credential lists a name under a relation. -/
def Lists (p : Policy) (r : Relation) (a b : String) : Prop :=
  ∃ c, p.find? (.text a) = some c ∧ .text b ∈ c.links.get r

/-- A policy keeps what a section says: every field has the requirements that are given for
it, every credential is declared, and every name that one lists is listed by it, as it is
by that name under the mirrored relation. -/
structure Keeps (p : Policy) (body : Section) : Prop where
  requirements : ∀ entries, body.get? "fields" = some (.dict entries) →
    ∀ field spec, (.text field, .dict spec) ∈ entries →
      ∃ f, p.fieldPolicy? (.text field) = some f ∧
        ∀ kind, (f.requirement kind).States (Section.get? spec kind.name)
  names : ∀ entries, body.get? "credentials" = some (.dict entries) →
    ∀ e ∈ entries, p.declares e.1 = true
  relations : ∀ entries, body.get? "credentials" = some (.dict entries) →
    ∀ name (c : Section), (.text name, .dict c) ∈ entries →
      ∀ (r : Relation) names, c.get? r.name = some (Value.ofNames names) →
        ∀ s ∈ names, p.Lists r name s ∧ p.Lists r.mirror s name

/-- A policy lists the paths between its credentials. -/
theorem lists_of_path {plan : Plan} {p : Policy} {registry : Registry}
    (h : Built plan p registry) (htexts : plan.Texts) {r : Relation} {a b : String}
    (ha : p.declares (.text a) = true) (hpath : plan.Lists.Path r a b) : p.Lists r a b := by
  obtain ⟨c, hfind⟩ := Option.isSome_iff_exists.mp ha
  obtain ⟨hc, hname⟩ := find?_eq_some (Value.isName_text a) hfind
  have hword : c.name.word = a := (Value.text?_eq_some_iff.mp hname).2
  have hmem : b ∈ (c.links.get r).map Value.word :=
    (h.links_iff_path hc).mpr (by rwa [hword])
  obtain ⟨v, hv, rfl⟩ := List.mem_map.mp hmem
  have htext := (h.within (fun _ => Value.isName_of_isText) htexts.merged c hc).2 r v hv
  exact ⟨c, hfind, by rwa [← Value.eq_text_of_isText htext]⟩

end Policy

namespace Declaration

variable {entityType : Value} {body : Section} {d : Declaration}

/-- A declared credential is one of those that are merged. -/
theorem toCredential_mem_merged (hooks : Option HookTable) (settings : Option Settings)
    {name : String} {b? : Option CredentialBody} (hmem : (name, b?) ∈ d.credentials) :
    (b?.getD {}).toCredential name ∈ (d.plan hooks settings).merged := by
  rw [Policy.Plan.merged, Policy.Plan.items, itemsOf?_plan, Option.getD_some,
    Registry.credentialsOf_unkeyed, toCredentials]
  exact List.mem_append_right _ (List.mem_map_of_mem (f := fun e : String × Option CredentialBody =>
    (e.2.getD {}).toCredential e.1) hmem)

section Building

variable {hooks : Option HookTable} {settings : Option Settings} {p : Policy}
  {registry : Registry} (h : Policy.Built (d.plan hooks settings) p registry)
include h

/-- The requirements on a declared field are those of its policy. -/
theorem fieldPolicy?_of_built (hd : d.Proper) {field : String} {r : FieldRequirements}
    (hmem : (field, r) ∈ d.fields) : ∃ f, p.fieldPolicy? (.text field) = some f ∧
      ∀ kind, f.requirement kind = r.get kind := by
  have hentries := entries?_fieldTable d hooks settings
  obtain ⟨hfields, hnames⟩ := FieldPolicy.fields_of_readAll hentries h.checked
  have hread := h.checked
  simp only [FieldPolicy.readAll, hentries, mapM_eq_ok_iff, List.forall₂_map_left_iff] at hread
  obtain ⟨f, hf, hfread⟩ := exists_of_mem_forall₂ hread hmem
  refine ⟨f, ?_, FieldPolicy.requirement_of_read_toValue (hd.requirements _ hmem) hfread⟩
  -- no other field policy is found under the name
  have hwords : (p.fields.map fun f => f.field.word).Nodup := by
    have heq := congrArg (List.map Value.word) hfields
    rw [List.map_map, List.map_map, List.map_map] at heq
    exact heq ▸ hd.fields
  have hfound : (f.field == Value.text field) = true := by
    rw [(FieldPolicy.field_of_read hfread).1]
    simp [Value.beq_eq_same, Value.same_of_names]
  cases hfind : p.fieldPolicy? (.text field) with
  | none => exact absurd hfound (List.find?_eq_none.mp hfind f hf)
  | some f' =>
    have hfound' := List.find?_some hfind
    rw [Policy.eq_of_same_name hnames hwords (List.mem_of_find?_eq_some hfind) hf hfound' hfound]

theorem declares_of_built {name : String} {b? : Option CredentialBody}
    (hmem : (name, b?) ∈ d.credentials) : p.declares (.text name) = true := by
  obtain ⟨c, hc, hword⟩ := h.mem_map_word_iff.mpr
    ⟨_, toCredential_mem_merged hooks settings hmem, rfl⟩
  exact hword ▸ Policy.declares_of_mem h hc

/-- A name that a declared credential lists is listed from both sides. -/
theorem lists_of_built {name : String} {b : CredentialBody} (hmem : (name, some b) ∈ d.credentials)
    {r : Relation} {s : String} (hs : s ∈ b.names r) :
    p.Lists r name s ∧ p.Lists r.mirror s name := by
  have htexts := texts_plan d hooks settings
  have hpath : (d.plan hooks settings).Lists.Path r name s :=
    Listing.path_of_lists ⟨_, toCredential_mem_merged hooks settings hmem, rfl,
      CredentialBody.lists_toCredential hs⟩
  exact ⟨Policy.lists_of_path h htexts (declares_of_built h hmem) hpath,
    Policy.lists_of_path h htexts (Policy.declares_of_path h hpath)
      (Listing.path_mirror.mpr hpath)⟩

end Building

/-- **Nothing is lost on the way.** A section of JSON that is read and built is sound, and the
policy keeps what it says. -/
theorem keeps_of_build (hjson : body.IsJson)
    (hparse : (parse entityType (.dict body)).outcome = .ok d) {hooks : Option HookTable}
    {settings : Option Settings} {p : Policy} (hbuild : (d.build hooks settings).outcome = .ok p) :
    Sound body ∧ p.Keeps body := by
  obtain ⟨registry, h⟩ := Policy.built_of_build hbuild
  obtain ⟨-, -, hd⟩ := readFrom_of_parse hparse
  refine ⟨sound_of_parse hjson hparse, ?_, ?_, ?_⟩
  · intro entries hentries field spec hmem
    obtain ⟨_, heq, hall⟩ := fields_of_parse hjson hparse hentries
    cases heq
    obtain ⟨⟨name, r⟩, hr, hname, spec', hspec, -, hstates⟩ := exists_of_mem_forall₂ hall hmem
    cases hname
    cases hspec
    obtain ⟨f, hfind, hrequirement⟩ := fieldPolicy?_of_built h hd hr
    exact ⟨f, hfind, fun kind => hrequirement kind ▸ hstates kind⟩
  · intro entries hentries e hmem
    obtain ⟨_, heq, hall⟩ := credentials_of_parse hjson hparse hentries
    cases heq
    obtain ⟨⟨name, b?⟩, hb, hname, -⟩ := exists_of_mem_forall₂ hall hmem
    exact hname ▸ declares_of_built h hb
  · intro entries hentries name c hmem r names hnames s hs
    obtain ⟨_, heq, hall⟩ := credentials_of_parse hjson hparse hentries
    cases heq
    obtain ⟨⟨name', b?⟩, hb, hname, ⟨hnull, -⟩ | ⟨c', b, hc, hcjson, hsome, hread⟩⟩ :=
      exists_of_mem_forall₂ hall hmem
    · cases hnull
    · cases hname
      cases hc
      cases hsome
      rw [← (CredentialBody.names_of_read hcjson hread).2 r names hnames] at hs
      exact lists_of_built h hb hs

/-- **Nothing is silently weakened.** A policy that is built from a section of JSON keeps what
the section says, and a section that is not sound ends in a configuration error, which takes
an entity type that can be written out. -/
theorem keeps_or_rejected (entityType : Value) (hjson : body.IsJson) :
    (∀ d hooks settings p, (parse entityType (.dict body)).outcome = .ok d →
      (d.build hooks settings).outcome = .ok p → Sound body ∧ p.Keeps body) ∧
    (¬ Sound body →
      if (owner entityType body).writable then
        RejectedAs .configuration (parse entityType (.dict body)).outcome
      else (parse entityType (.dict body)).outcome = .error .illFormed) := by
  refine ⟨fun d hooks settings p hparse hbuild => keeps_of_build hjson hparse hbuild, ?_⟩
  intro hsound
  rw [parse_of_entries? (Value.entries?_dict body)]
  have houtcome := outcome_ofSection entityType body
  split at houtcome
  · exact absurd (sound_of_parse hjson houtcome) hsound
  · split
    · rename_i hwritable
      rw [if_pos hwritable] at houtcome
      exact ⟨_, houtcome, rfl⟩
    · rename_i hwritable
      rwa [if_neg hwritable] at houtcome

/-- Receipts that whoever approves them may audit, with a total that nobody edits. -/
def receiptSection : Section :=
  [(.text "include_defaults", .bool false),
    (.text "credentials", .dict [
      (.text "approve", .dict [(.text "implies", .list [.text "audit"])]),
      (.text "audit", .null)]),
    (.text "fields", .dict [
      (.text "total", .dict [(.text "view", .text "audit"), (.text "edit", .bool false)])])]

theorem keeps_receiptSection : ∃ d p, (parse (.text "Receipt") (.dict receiptSection)).outcome =
    .ok d ∧ (d.build none none).outcome = .ok p ∧ p.Keeps receiptSection := by
  have hjson : receiptSection.IsJson :=
    .cons (.bool _) (by simp) (.cons
      (.cons (.cons (.list (by simp [Value.IsJson.text])) (by simp) .nil) (by simp)
        (.cons .null (by simp) .nil)) (by simp) (.cons
      (.cons (.cons (.text _) (by simp) (.cons (.bool _) (by simp) .nil)) (by simp) .nil)
      (by simp) .nil))
  have hbuilt : ((parse (.text "Receipt") (.dict receiptSection)).outcome.toOption.any fun d =>
      (d.build none none).outcome.toOption.any fun _ => true) = true := by decide +kernel
  obtain ⟨d, hparse, hrest⟩ := exists_ok_of_any hbuilt
  obtain ⟨p, hbuild, -⟩ := exists_ok_of_any hrest
  exact ⟨d, p, hparse, hbuild, ((keeps_or_rejected _ hjson).1 d none none p hparse hbuild).2⟩

/-- What no field may be configured with. -/
def openSpec : Section :=
  [(.text "view", .bool true)]

/-- Invoices whose entity type is a number of more digits than can be written out. -/
def endlessSection : Section :=
  [(.text "entity_type", .int (10 ^ 4300)),
    (.text "fields", .dict [(.text "iban", .dict openSpec)])]

/-- A section that is not sound is not always refused with a configuration error. -/
theorem parse_endlessSection : endlessSection.IsJson ∧ ¬ Sound endlessSection ∧
    ¬ RejectedAs .configuration (parse .null (.dict endlessSection)).outcome := by
  have hspec : openSpec.IsJson := .cons (.bool _) (by simp) .nil
  have hjson : endlessSection.IsJson :=
    .cons (.int _) (by simp) (.cons (.cons hspec (by simp) .nil) (by simp) .nil)
  refine ⟨hjson, fun hsound => ?_, ?_⟩
  · have hfields : endlessSection.get? "fields" = some (.dict [(.text "iban", .dict openSpec)]) :=
      (Section.get?_eq_some_iff hjson).mpr (List.mem_cons_of_mem _ List.mem_cons_self)
    obtain ⟨entries, heq, hall⟩ := hsound.fields _ hfields
    cases heq
    obtain ⟨spec, hdict, -, hrequirements⟩ := hall _ List.mem_cons_self
    cases hdict
    rcases hrequirements .view _ ((Section.get?_eq_some_iff hspec).mpr List.mem_cons_self) with
      hnull | hfalse | ⟨s, htext⟩
    · cases hnull
    · cases hfalse
    · cases htext
  · rintro ⟨r, hr, -⟩
    have htest : ((parse .null (.dict endlessSection)).outcome matches .error .illFormed) =
        true := by decide +kernel
    rw [hr] at htest
    cases htest

end Declaration

end Clearance
