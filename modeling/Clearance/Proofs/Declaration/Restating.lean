import Clearance.Proofs.Declaration.Section

/-! One declaration in other words.

A section may list its keys in another order (`restates_of_perm`, for a section as for the bodies
in it), give a label under either of its two keys, and write out or leave out what counts anyway.
What it says stays the same (`Declaration.Restates`), and so does the fingerprint, which tells
apart whatever is not said alike (`fingerprint_eq_iff_of_parse`). -/
namespace Clearance

namespace Section

/-! ## What a section says -/

/-- What a section says under a key, or what counts when it says nothing. -/
def stated (body : Section) (key : String) (absent : Value) : Value :=
  (body.get? key).getD absent

@[simp] theorem get?_nil (key : String) : get? [] key = none := rfl

@[simp] theorem get?_cons_text (s key : String) (v : Value) (rest : Section) :
    get? ((.text s, v) :: rest) key = if s = key then some v else rest.get? key := by
  rw [get?, Value.at?, List.find?_cons, Value.same_text]
  by_cases h : s = key
  · simp [h]
  · rw [if_neg h, beq_eq_false_iff_ne.mpr h]
    rfl

/-- Whether a key reads as a name. -/
def readsAs (key : Value) (name : String) : Bool :=
  match readText key with
  | .fits s => s == name
  | .faulty _ => false

/-- What a mapping says under a name. Of several keys that read as the name the last one counts. -/
def named? (entries : Section) (name : String) : Option Value :=
  (entries.reverse.find? fun e => readsAs e.1 name).map Prod.snd

/-- What counts when nothing is said may be read in its place. -/
theorem read_stated {α : Type} {body : Section} {key : String} {absent : α} {v : Value}
    {read : Value → Checked α} {a : α} (h : body.optional key absent read = .fits a)
    (habsent : read v = .fits absent) : read (body.stated key v) = .fits a := by
  unfold stated
  rcases optional_eq_fits_iff.mp h with ⟨hnone, rfl⟩ | ⟨w, hw, hread⟩
  · rw [hnone]
    exact habsent
  · rw [hw]
    exact hread

/-- Parts that are read alike from sections that say the same are the same. -/
theorem part_eq_of_stated {α : Type} {body body' : Section} {key key' : String} {absent : α}
    {v : Value} {read : Value → Checked α} {a a' : α}
    (h : body.optional key absent read = .fits a) (h' : body'.optional key' absent read = .fits a')
    (habsent : read v = .fits absent) (hstated : body.stated key v = body'.stated key' v) :
    a = a' := by
  have hread := read_stated h habsent
  rw [hstated, read_stated h' habsent] at hread
  cases hread
  rfl

end Section

/-- Two values are mappings that say related things under every name. -/
def NamedAlike (R : Value → Value → Prop) (v v' : Value) : Prop :=
  ∃ entries entries', v.entries? = some entries ∧ v'.entries? = some entries' ∧
    ∀ name, Option.Rel R (Section.named? entries name) (Section.named? entries' name)

/-- Two values are sections that are related. -/
def SectionsAlike (R : Section → Section → Prop) (v v' : Value) : Prop :=
  ∃ body body', v.entries? = some body ∧ v'.entries? = some body' ∧ R body body'

/-- Members that are found alike in related lists are related. -/
theorem rel_find? {α β γ δ : Type} {p : α → Bool} {q : β → Bool} {f : α → γ} {g : β → δ}
    {R : γ → δ → Prop} {xs : List α} {ys : List β}
    (h : List.Forall₂ (fun a b => p a = q b ∧ R (f a) (g b)) xs ys) :
    Option.Rel R ((xs.find? p).map f) ((ys.find? q).map g) := by
  induction h with
  | nil => exact .none
  | @cons a b rest rest' hab _ ih =>
    obtain ⟨htest, hrel⟩ := hab
    rw [List.find?_cons, List.find?_cons, ← htest]
    cases p a with
    | true => exact .some hrel
    | false => exact ih

section Mappings

variable {α : Type} {read : Value → Checked α} {R : Value → Value → Prop} {v v' : Value}
  {table table' : List (String × α)}

/-- Under every name a table has what is read of the mapping under that name. -/
theorem rel_lookup_of_readMapping {entries : Section} (hentries : v.entries? = some entries)
    (h : readMapping read v = .fits table) (name : String) :
    Option.Rel (fun w a => read w = .fits a) (Section.named? entries name)
      (table.lookup name) := by
  obtain ⟨_, items, hsame, hitems, rfl⟩ := forall₂_of_readMapping h
  cases hentries.symm.trans hsame
  rw [lookup_putAll, List.lookup_nil, Option.or_none, Section.named?,
    Entries.lookup_eq_find?]
  refine rel_find? ((List.forall₂_reverse_iff.mpr hitems).imp fun e t hentry => ?_)
  simp only [Section.readsAs, hentry.1, hentry.2, and_self]

/-- Mappings that say alike under every name are read as the same table, but for its order. -/
theorem perm_of_namedAlike (h : NamedAlike R v v') (hread : readMapping read v = .fits table)
    (hread' : readMapping read v' = .fits table')
    (hsame : ∀ w w' a a', R w w' → read w = .fits a → read w' = .fits a' → a = a') :
    table.Perm table' := by
  obtain ⟨entries, entries', hentries, hentries', hnamed⟩ := h
  refine Entries.perm_of_lookup (nodup_of_readMapping hread).1 (nodup_of_readMapping hread').1
    fun name => ?_
  have hleft := rel_lookup_of_readMapping hentries hread name
  have hright := rel_lookup_of_readMapping hentries' hread' name
  have hboth := hnamed name
  generalize Section.named? entries name = w at hleft hboth
  generalize Section.named? entries' name = w' at hright hboth
  generalize table.lookup name = a at hleft ⊢
  generalize table'.lookup name = a' at hright ⊢
  -- under a name that neither mapping has, neither table has anything
  cases hboth with
  | none =>
    cases hleft
    cases hright
    rfl
  | some hrel =>
    cases hleft with
    | some hfits =>
      cases hright with
      | some hfits' => exact congrArg some (hsame _ _ _ _ hrel hfits hfits')

end Mappings

/-! ## Keys in another order -/

namespace Section

variable {body body' : Section}

theorem Keyed.of_perm (h : body.Keyed) (hperm : body.Perm body') : body'.Keyed :=
  ⟨fun e he => h.texts e (hperm.mem_iff.mpr he), (hperm.map Prod.fst).nodup_iff.mp h.distinct⟩

theorem Keyed.get?_eq_of_perm (h : body.Keyed) (hperm : body.Perm body') (key : String) :
    body.get? key = body'.get? key := by
  refine Option.ext fun v => ?_
  rw [h.get?_eq_some_iff, (h.of_perm hperm).get?_eq_some_iff, hperm.mem_iff]

/-- What a section says does not depend on the order of its keys. -/
theorem Keyed.stated_eq_of_perm (h : body.Keyed) (hperm : body.Perm body') (key : String)
    (absent : Value) : body.stated key absent = body'.stated key absent := by
  rw [stated, stated, h.get?_eq_of_perm hperm]

/-- A key that is a text reads as itself, so that there is no other one to count. -/
theorem Keyed.named?_eq (h : body.Keyed) (name : String) : named? body name = body.get? name := by
  have hreads : ∀ e ∈ body.reverse, readsAs e.1 name = Value.same e.1 (.text name) := by
    intro e he
    obtain ⟨k, hk⟩ := h.texts e (List.mem_reverse.mp he)
    rw [hk, Value.same_text]
    rfl
  rw [named?, ← List.head?_filter, List.filter_congr hreads, List.head?_filter]
  exact (h.of_perm (List.reverse_perm body).symm).get?_eq_of_perm (List.reverse_perm body) name

end Section

/-- Mappings say alike under every name when they have the same keys, in whatever order, with
related values. -/
theorem namedAlike_of_reordered {R : Value → Value → Prop} {entries mid entries' : Section}
    (h : entries.Keyed) (hperm : entries.Perm mid)
    (hall : List.Forall₂ (fun e e' => e.1 = e'.1 ∧ R e.2 e'.2) mid entries') :
    NamedAlike R (.dict entries) (.dict entries') := by
  refine ⟨entries, entries', Value.entries?_dict _, Value.entries?_dict _, fun name => ?_⟩
  rw [h.named?_eq, h.get?_eq_of_perm hperm, ← (h.of_perm hperm).named?_eq]
  refine rel_find? ((List.forall₂_reverse_iff.mpr hall).imp fun e e' hentry => ?_)
  rw [hentry.1]
  exact ⟨rfl, hentry.2⟩

/-- A mapping says the same as itself when its values do. -/
theorem namedAlike_refl {R : Value → Value → Prop} {v : Value} {entries : Section}
    (hentries : v.entries? = some entries) (hall : ∀ e ∈ entries, R e.2 e.2) : NamedAlike R v v :=
  ⟨entries, entries, hentries, hentries, fun _ => rel_find? <| List.forall₂_same.mpr
    fun e he => ⟨rfl, hall e (List.mem_reverse.mp he)⟩⟩

/-! ## The same requirements and the same bodies -/

/-- Two fields are configured alike: nothing may be required by null or by leaving a kind out. -/
def FieldRequirements.Restates (spec spec' : Section) : Prop :=
  ∀ kind : FieldKind, spec.stated kind.name .null = spec'.stated kind.name .null

theorem FieldRequirements.restates_of_perm {spec spec' : Section} (h : spec.Keyed)
    (hperm : spec.Perm spec') : Restates spec spec' :=
  fun kind => h.stated_eq_of_perm hperm kind.name .null

theorem FieldRequirements.eq_of_restates {spec spec' : Section} (h : Restates spec spec')
    {r r' : FieldRequirements} (hread : read spec = .fits r) (hread' : read spec' = .fits r') :
    r = r' := by
  have hkind : ∀ kind, r.get kind = r'.get kind := fun kind =>
    Section.part_eq_of_stated (part_of_read hread kind) (part_of_read hread' kind) rfl (h kind)
  have hview := hkind .view
  have hcreate := hkind .create
  have hedit := hkind .edit
  cases r
  cases r'
  simp only [get] at hview hcreate hedit
  rw [hview, hcreate, hedit]

namespace CredentialBody

/-- Two bodies say the same of a credential: the label stands under either of its keys, and a
text may be left out for null and a relation for an empty list. -/
structure Restates (body body' : Section) : Prop where
  label : body.stated (labelKey body) .null = body'.stated (labelKey body') .null
  description : body.stated "description" .null = body'.stated "description" .null
  relations : ∀ r : Relation, body.stated r.name (.list []) = body'.stated r.name (.list [])

theorem restates_of_perm {body body' : Section} (h : body.Keyed) (hperm : body.Perm body') :
    Restates body body' where
  label := by
    rw [labelKey, labelKey, ← h.get?_eq_of_perm hperm]
    exact h.stated_eq_of_perm hperm _ _
  description := h.stated_eq_of_perm hperm _ _
  relations := fun _ => h.stated_eq_of_perm hperm _ _

theorem eq_of_names {b b' : CredentialBody} (hlabel : b.label = b'.label)
    (hdescription : b.description = b'.description) (h : ∀ r, b.names r = b'.names r) :
    b = b' := by
  have h1 := h .implies
  have h2 := h .impliedBy
  have h3 := h .subrights
  have h4 := h .subrightOf
  cases b
  cases b'
  simp only [names] at *
  rw [hlabel, hdescription, h1, h2, h3, h4]

theorem eq_of_restates {body body' : Section} (h : Restates body body') {b b' : CredentialBody}
    (hread : read body = .fits b) (hread' : read body' = .fits b') : b = b' := by
  have hparts := parts_of_read hread
  have hparts' := parts_of_read hread'
  exact eq_of_names (Section.part_eq_of_stated hparts.label hparts'.label rfl h.label)
    (Section.part_eq_of_stated hparts.description hparts'.description rfl h.description)
    fun r => Section.part_eq_of_stated (hparts.names r) (hparts'.names r) rfl (h.relations r)

/-- Two values say the same of a credential: they are both null, or bodies that do. -/
def RestatesValue (v v' : Value) : Prop :=
  (v = .null ∧ v' = .null) ∨ SectionsAlike Restates v v'

theorem eq_of_restatesValue {v v' : Value} (h : RestatesValue v v')
    {b? b'? : Option CredentialBody} (hread : readOptional (readSection read) v = .fits b?)
    (hread' : readOptional (readSection read) v' = .fits b'?) : b? = b'? := by
  rcases h with ⟨rfl, rfl⟩ | ⟨body, body', hbody, hbody', hsame⟩
  · cases hread
    cases hread'
    rfl
  · -- null is no section
    rcases readOptional_cases hread with ⟨rfl, -⟩ | ⟨b, rfl, hb⟩
    · cases hbody
    rcases readOptional_cases hread' with ⟨rfl, -⟩ | ⟨b', rfl, hb'⟩
    · cases hbody'
    simp only [readSection, hbody, hbody'] at hb hb'
    rw [eq_of_restates hsame hb hb']

end CredentialBody

/-! ## The same declaration -/

namespace Declaration

/-- A section is read for the entity type that it names, or else for the one it was given. -/
theorem owner_eq (entityType : Value) (body : Section) :
    owner entityType body = body.stated "entity_type" entityType := by
  rw [owner, Section.stated]
  unfold withEntityType
  split
  · cases body.get? "entity_type" <;> rfl
  · rename_i v hv
    rw [hv]
    rfl
  · rename_i hnone
    have hfind := hnone
    rw [Section.get?, Value.at?, Option.map_eq_none_iff] at hfind
    rw [hnone, Section.get?, Value.at?, List.find?_append, hfind]
    simp [Value.orNull]

/-- Two sections, each with the entity type that it is read for, say the same: they say alike
what they say of each credential and of each field, and the switches and the two mappings may be
left out where they say what counts anyway. -/
structure Restates (entityType : Value) (body : Section) (entityType' : Value) (body' : Section) :
    Prop where
  owner : owner entityType body = owner entityType' body'
  credentials : NamedAlike CredentialBody.RestatesValue
    (body.stated "credentials" (.dict [])) (body'.stated "credentials" (.dict []))
  fields : NamedAlike (SectionsAlike FieldRequirements.Restates)
    (body.stated "fields" (.dict [])) (body'.stated "fields" (.dict []))
  softDelete : body.stated "soft_delete" (.bool false) = body'.stated "soft_delete" (.bool false)
  includeDefaults :
    body.stated "include_defaults" (.bool true) = body'.stated "include_defaults" (.bool true)
  strict : body.stated "strict" .null = body'.stated "strict" .null

variable {entityType entityType' : Value} {body body' : Section} {d d' : Declaration}

/-- A section that can be read says the same with its keys in another order. -/
theorem restates_of_perm (hread : read (withEntityType entityType body) = .fits d)
    (h : body.Keyed) (hperm : body.Perm body') : Restates entityType body entityType body' := by
  have hstated := h.stated_eq_of_perm hperm
  obtain ⟨-, hcredentials, hfields, -⟩ := parts_of_read hread
  rw [optional_withEntityType _ _ (by decide)] at hcredentials hfields
  refine ⟨?_, ?_, ?_, hstated _ _, hstated _ _, hstated _ _⟩
  · rw [owner_eq, owner_eq, hstated]
  · have hmapping := Section.read_stated (v := .dict []) hcredentials rfl
    obtain ⟨entries, items, hentries, hitems, -⟩ := forall₂_of_readMapping hmapping
    rw [← hstated]
    refine namedAlike_refl hentries fun e he => ?_
    obtain ⟨t, -, -, hbody⟩ := exists_of_mem_forall₂ hitems he
    rcases readOptional_cases hbody with ⟨hnull, -⟩ | ⟨b, -, hsection⟩
    · exact .inl ⟨hnull, hnull⟩
    · obtain ⟨c, hc, -⟩ := exists_of_readSection hsection
      exact .inr ⟨c, c, hc, hc, ⟨rfl, rfl, fun _ => rfl⟩⟩
  · have hmapping := Section.read_stated (v := .dict []) hfields rfl
    obtain ⟨entries, items, hentries, hitems, -⟩ := forall₂_of_readMapping hmapping
    rw [← hstated]
    refine namedAlike_refl hentries fun e he => ?_
    obtain ⟨t, -, -, hspec⟩ := exists_of_mem_forall₂ hitems he
    obtain ⟨c, hc, -⟩ := exists_of_readSection hspec
    exact ⟨c, c, hc, hc, fun _ => rfl⟩

/-- Sections that say the same are read as the same content. -/
theorem sameContent_of_restates (h : Restates entityType body entityType' body')
    (hread : read (withEntityType entityType body) = .fits d)
    (hread' : read (withEntityType entityType' body') = .fits d') : d.SameContent d' := by
  obtain ⟨hentity, hcredentials, hfields, hsoft, hdefaults, hstrict⟩ := parts_of_read hread
  obtain ⟨hentity', hcredentials', hfields', hsoft', hdefaults', hstrict'⟩ := parts_of_read hread'
  rw [optional_withEntityType _ _ (by decide)] at hcredentials hfields hsoft hdefaults hstrict
  rw [optional_withEntityType _ _ (by decide)] at hcredentials' hfields' hsoft' hdefaults' hstrict'
  have howner : ∀ {entityType : Value} {body : Section} {s : String},
      (withEntityType entityType body).required "entity_type" readFilledText = .fits s →
      readFilledText (owner entityType body) = .fits s := by
    intro entityType body s hrequired
    obtain ⟨v, hv, hs⟩ := Section.required_eq_fits_iff.mp hrequired
    rw [owner, hv]
    exact hs
  have hname := howner hentity
  rw [h.owner, howner hentity'] at hname
  exact
    { entityType := (Checked.fits.inj hname).symm
      credentials := perm_of_namedAlike h.credentials (Section.read_stated hcredentials rfl)
        (Section.read_stated hcredentials' rfl) fun _ _ _ _ hsame hfits hfits' =>
          CredentialBody.eq_of_restatesValue hsame hfits hfits'
      fields := perm_of_namedAlike h.fields (Section.read_stated hfields rfl)
        (Section.read_stated hfields' rfl) fun w w' r r' hsame hfits hfits' => by
          obtain ⟨spec, spec', hspec, hspec', hkinds⟩ := hsame
          simp only [readSection, hspec, hspec'] at hfits hfits'
          exact FieldRequirements.eq_of_restates hkinds hfits hfits'
      softDelete := Section.part_eq_of_stated hsoft hsoft' rfl h.softDelete
      includeDefaults := Section.part_eq_of_stated hdefaults hdefaults' rfl h.includeDefaults
      strict := Section.part_eq_of_stated hstrict hstrict' rfl h.strict }

/-- **Fingerprints identify what is said.** Two declarations that were parsed have the same
fingerprint exactly when they have the same entity type and switches, the same credentials with
the same bodies and the same fields with the same requirements. The order of keys, the key of a
label, and what is written out although it counts anyway make no difference to it: sections that
say the same have the same fingerprint. -/
theorem fingerprint_eq_iff_of_parse {entityType entityType' data data' : Value}
    {d d' : Declaration} (h : (parse entityType data).outcome = .ok d)
    (h' : (parse entityType' data').outcome = .ok d') :
    (d.fingerprint = d'.fingerprint ↔ d.SameContent d') ∧
    ∀ body body', data.entries? = some body → data'.entries? = some body' →
      Restates entityType body entityType' body' → d.fingerprint = d'.fingerprint := by
  obtain ⟨body, hbody⟩ := exists_entries_of_parse h
  obtain ⟨body', hbody'⟩ := exists_entries_of_parse h'
  have hread := read_of_parse hbody h
  have hread' := read_of_parse hbody' h'
  have hproper := proper_of_read hread
  refine ⟨⟨sameContent_of_fingerprint_eq hproper (proper_of_read hread'),
    fingerprint_eq_of_sameContent hproper⟩, ?_⟩
  intro body₁ body₁' hsame hsame' hrestates
  cases hbody.symm.trans hsame
  cases hbody'.symm.trans hsame'
  exact fingerprint_eq_of_sameContent hproper (sameContent_of_restates hrestates hread hread')

/-- Offers that whoever approves them may audit, with a total that nobody edits. -/
def offerSection : Section :=
  [(.text "credentials", .dict [
      (.text "approve", .dict [(.text "name", .text "Approve"),
        (.text "implies", .list [.text "audit"])]),
      (.text "audit", .null)]),
    (.text "fields", .dict [
      (.text "total", .dict [(.text "edit", .bool false), (.text "view", .text "audit")])])]

/-- The same offers in other words, with their entity type and nearly all that counts anyway. -/
def longOfferSection : Section :=
  [(.text "strict", .null),
    (.text "fields", .dict [
      (.text "total", .dict [(.text "view", .text "audit"), (.text "create", .null),
        (.text "edit", .bool false)])]),
    (.text "entity_type", .text "Offer"),
    (.text "include_defaults", .bool true),
    (.text "credentials", .dict [
      (.text "audit", .null),
      (.text "approve", .dict [(.text "implies", .list [.text "audit"]),
        (.text "subrights", .list []), (.text "description", .null),
        (.text "label", .text "Approve")])]),
    (.text "soft_delete", .bool false)]

theorem restates_offerSection :
    Restates (.text "Offer") offerSection .null longOfferSection where
  owner := by simp [owner, withEntityType, offerSection, longOfferSection, Value.orNull]
  credentials := by
    have hkeyed : ∀ v w : Value, Section.Keyed [(.text "approve", v), (.text "audit", w)] :=
      fun v w => ⟨by simp [Value.IsText], by simp⟩
    simp only [Section.stated, offerSection, longOfferSection, Section.get?_cons_text]
    refine namedAlike_of_reordered (hkeyed _ _) (.swap ..) ?_
    refine .cons ⟨rfl, .inl ⟨rfl, rfl⟩⟩ (.cons ⟨rfl, .inr ?_⟩ .nil)
    refine ⟨_, _, rfl, rfl, ?_, ?_, fun r => ?_⟩
    · simp [Section.stated, CredentialBody.labelKey]
    · simp [Section.stated]
    · cases r <;> simp [Section.stated, Relation.name]
  fields := by
    have hkeyed : ∀ v : Value, Section.Keyed [(.text "total", v)] :=
      fun v => ⟨by simp [Value.IsText], by simp⟩
    simp only [Section.stated, offerSection, longOfferSection, Section.get?_cons_text]
    refine namedAlike_of_reordered (hkeyed _) (.refl _) ?_
    refine .cons ⟨rfl, _, _, rfl, rfl, fun kind => ?_⟩ .nil
    cases kind <;> simp [Section.stated, FieldKind.name]
  softDelete := by simp [Section.stated, offerSection, longOfferSection]
  includeDefaults := by simp [Section.stated, offerSection, longOfferSection]
  strict := by simp [Section.stated, offerSection, longOfferSection]

/-- The long offers have the fingerprint of the short ones. -/
theorem fingerprint_offerSection : ∃ d d', (parse (.text "Offer") (.dict offerSection)).outcome =
    .ok d ∧ (parse .null (.dict longOfferSection)).outcome = .ok d' ∧
    d.fingerprint = d'.fingerprint ∧ d.SameContent d' := by
  have hshort : ((parse (.text "Offer") (.dict offerSection)).outcome.toOption.any fun _ => true) =
      true := by decide +kernel
  have hlong : ((parse .null (.dict longOfferSection)).outcome.toOption.any fun _ => true) =
      true := by decide +kernel
  obtain ⟨d, hd, -⟩ := exists_ok_of_any hshort
  obtain ⟨d', hd', -⟩ := exists_ok_of_any hlong
  obtain ⟨hiff, hrestates⟩ := fingerprint_eq_iff_of_parse hd hd'
  have heq := hrestates _ _ (Value.entries?_dict _) (Value.entries?_dict _) restates_offerSection
  exact ⟨d, d', hd, hd', heq, hiff.mp heq⟩

end Declaration

end Clearance
