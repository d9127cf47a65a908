import Clearance.Proofs.Policy.Build
import Clearance.Proofs.Registry.Batches

/-! Policies do not depend on the order of their declarations.

Declaring the same credentials in another order leaves the same table in another order,
compiling that leaves the same compiled credentials, and reading the same field
requirements leaves the same field policies. A plan that is rearranged therefore builds
exactly when the plan itself does, and to a policy that answers the same. -/
namespace Clearance

/-- A search that can find one member only finds it in every order. -/
theorem find?_eq_of_perm {α : Type} {q : α → Bool} {xs xs' : List α} (h : xs.Perm xs')
    (hone : ∀ a ∈ xs, ∀ b ∈ xs, q a = true → q b = true → a = b) :
    xs.find? q = xs'.find? q := by
  cases hfind : xs.find? q with
  | none =>
    rw [List.find?_eq_none] at hfind
    exact (List.find?_eq_none.mpr fun a ha => hfind a (h.mem_iff.mpr ha)).symm
  | some a =>
    have ha : a ∈ xs := List.mem_of_find?_eq_some hfind
    have hqa : q a = true := List.find?_some hfind
    obtain ⟨b, hfind'⟩ := Option.isSome_iff_exists.mp
      (List.find?_isSome.mpr ⟨a, h.mem_iff.mp ha, hqa⟩)
    have hb : b ∈ xs := h.mem_iff.mpr (List.mem_of_find?_eq_some hfind')
    rw [hfind', hone a ha b hb hqa (List.find?_some hfind')]

/-! ## Compiling -/

namespace Declared

variable {source source' : Declared}

theorem WellFormed.perm (h : source.WellFormed) (hperm : source.Perm source') :
    source'.WellFormed where
  keys e he := h.keys e (hperm.mem_iff.mpr he)
  distinct := (hperm.map _).nodup_iff.mp h.distinct
  names e he := h.names e (hperm.mem_iff.mpr he)

theorem lists_perm (hperm : source.Perm source') {r : Relation} {a b : String} :
    source.Lists r a b ↔ source'.Lists r a b := by
  simp only [Lists, hperm.mem_iff]

theorem Known.perm (h : source.Known) (hperm : source.Perm source') : source'.Known := by
  intro r a b hlist
  exact (hperm.map _).mem_iff.mp (h r a b ((lists_perm hperm).mpr hlist))

/-- Names that are texts stand for themselves, so that equal texts are equal names. -/
theorem eq_of_map_word_eq {xs ys : List Value} (hx : ∀ v ∈ xs, v.IsText)
    (hy : ∀ v ∈ ys, v.IsText) (h : xs.map Value.word = ys.map Value.word) : xs = ys := by
  have hback : ∀ {zs : List Value}, (∀ v ∈ zs, v.IsText) →
      (zs.map Value.word).map Value.text = zs := by
    intro zs hz
    rw [List.map_map]
    refine (List.map_congr_left ?_).trans (List.map_id zs)
    exact fun v hv => (Value.eq_text_of_isText (hz v hv)).symm
  rw [← hback hx, ← hback hy, h]

/-- The compiled credentials of one mapping stand among those of the other. -/
theorem Closes.mem_of_perm (hperm : source.Perm source') {compiled compiled' : List Capability}
    (hc : Closes source compiled) (hc' : Closes source' compiled')
    (htexts : ∀ c ∈ compiled, ∀ r, ∀ v ∈ c.links.get r, v.IsText)
    (htexts' : ∀ c ∈ compiled', ∀ r, ∀ v ∈ c.links.get r, v.IsText) {c : Capability}
    (hmem : c ∈ compiled) : c ∈ compiled' := by
  -- its name and texts stand in the other mapping, hence among what that compiles to
  have hlabelled : (c.name, c.label, c.description) ∈
      compiled'.map fun c => (c.name, c.label, c.description) := by
    rw [hc'.labelled, ← (hperm.map _).mem_iff, ← hc.labelled]
    exact List.mem_map.mpr ⟨c, hmem, rfl⟩
  obtain ⟨c', hmem', heq⟩ := List.mem_map.mp hlabelled
  simp only [Prod.mk.injEq] at heq
  obtain ⟨hname, hlabel, hdescription⟩ := heq
  have hlinks : c'.links = c.links := by
    refine Links.ext_get fun r => ?_
    refine eq_of_map_word_eq (htexts' c' hmem' r) (htexts c hmem r) ?_
    refine Ascending.eq_of_mem_iff (hc'.strict c' hmem' r) (hc.strict c hmem r) fun s => ?_
    rw [hc'.lists c' hmem', hc.lists c hmem, hname]
    exact Listing.path_congr fun _ _ _ => (lists_perm hperm).symm
  cases c
  cases c'
  cases hname
  cases hlabel
  cases hdescription
  cases hlinks
  exact hmem'

/-- **Compiling in another order.** A mapping of texts compiles in every order, and to the
same credentials. -/
theorem compile_perm (h : source.WellFormed) (hperm : source.Perm source')
    (htexts : ∀ e ∈ source, e.1.IsText ∧ e.2.Within Value.IsText) {owner : Value}
    {compiled : List Capability} (hok : (source.compile owner).outcome = .ok compiled) :
    ∃ compiled', (source'.compile owner).outcome = .ok compiled' ∧
      compiled.Perm compiled' := by
  obtain ⟨hknown, hc⟩ := closes_of_compile h hok
  have h' := h.perm hperm
  obtain ⟨compiled', hok', hc'⟩ := (compile_outcome h' owner).2 (hknown.perm hperm)
  have hisName : ∀ v : Value, v.IsText → v.IsName := fun v => Value.isName_of_isText
  have hwithin := within_compile hisName htexts hok
  have hwithin' := within_compile hisName
    (fun e he => htexts e (hperm.mem_iff.mpr he)) hok'
  refine ⟨compiled', hok', ?_⟩
  have hnodup : compiled.Nodup := List.Nodup.of_map _ (hc.map_word ▸ h.distinct)
  have hnodup' : compiled'.Nodup := List.Nodup.of_map _ (hc'.map_word ▸ h'.distinct)
  refine (List.perm_ext_iff_of_nodup hnodup hnodup').mpr fun c => ⟨?_, ?_⟩
  · exact hc.mem_of_perm hperm hc' (fun c hc => (hwithin c hc).2) fun c hc => (hwithin' c hc).2
  · exact hc'.mem_of_perm hperm.symm hc (fun c hc => (hwithin' c hc).2)
      fun c hc => (hwithin c hc).2

end Declared

/-! ## Reading field requirements -/

namespace FieldPolicy

theorem field_of_read {owner : Value} {known : Known} {field spec : Value} {f : FieldPolicy}
    (h : read owner known field spec = .ok f) : f.field = field ∧ field.IsName := by
  unfold read at h
  split at h
  · exact absurd h refuse_ne_ok
  · rename_i s hs
    split at h
    · exact absurd h refuse_ne_ok
    · obtain ⟨d, -, h⟩ := bind_eq_ok_iff.mp h
      obtain ⟨view, -, h⟩ := bind_eq_ok_iff.mp h
      obtain ⟨create, -, h⟩ := bind_eq_ok_iff.mp h
      obtain ⟨edit, -, h⟩ := bind_eq_ok_iff.mp h
      cases h
      exact ⟨rfl, (Value.text?_eq_some_iff.mp hs).1⟩

/-- The field policies of a mapping stand for its keys, which are names. -/
theorem fields_of_readAll {owner : Value} {known : Known} {table : Value}
    {entries : List (Value × Value)} (hentries : table.entries? = some entries)
    {checked : List FieldPolicy} (h : readAll owner known table = .ok checked) :
    checked.map FieldPolicy.field = entries.map Prod.fst ∧ ∀ f ∈ checked, f.field.IsName := by
  simp only [readAll, hentries, mapM_eq_ok_iff] at h
  clear hentries
  induction h with
  | nil => simp
  | cons hread _ ih =>
    obtain ⟨hfield, hname⟩ := field_of_read hread
    rw [List.map_cons, List.map_cons, hfield, ih.1]
    exact ⟨rfl, List.forall_mem_cons.mpr ⟨hfield ▸ hname, ih.2⟩⟩

end FieldPolicy

namespace Policy

/-! ## Policies with the same rules -/

/-- Two policies with the same rules: equal mappings of credentials and of fields, in
whatever order, and equal switches. Hooks are another matter. -/
structure SameRules (p q : Policy) : Prop where
  entityType : p.entityType = q.entityType
  credentials : p.credentials.Perm q.credentials
  fields : p.fields.Perm q.fields
  softDelete : p.softDelete = q.softDelete
  strict : p.strict = q.strict
  find? : ∀ name, p.find? name = q.find? name
  fieldPolicy? : ∀ field, p.fieldPolicy? field = q.fieldPolicy? field

/-- Members with different names are not both found under one name. -/
theorem eq_of_same_name {α : Type} {nameOf : α → Value} {xs : List α}
    (hnames : ∀ a ∈ xs, (nameOf a).IsName) (hnodup : (xs.map fun a => (nameOf a).word).Nodup)
    {name : Value} {a b : α} (ha : a ∈ xs) (hb : b ∈ xs) (hfa : (nameOf a == name) = true)
    (hfb : (nameOf b == name) = true) : a = b := by
  rw [Value.beq_eq_same, Value.same_iff_of_isName (hnames _ ‹_›)] at hfa hfb
  exact List.inj_on_of_nodup_map hnodup ha hb (Option.some.inj (hfa.symm.trans hfb))

/-- A plan and another that says the same in another order. Neither names a field twice. -/
structure Plan.Reorders (plan plan' : Plan) : Prop where
  entityType : plan.entityType = plan'.entityType
  softDelete : plan.softDelete = plan'.softDelete
  includeDefaults : plan.includeDefaults = plan'.includeDefaults
  strict : strictness plan = strictness plan'
  credentials : ∃ items items', Registry.itemsOf? plan.credentials = some items ∧
    Registry.itemsOf? plan'.credentials = some items' ∧ Registry.Rearranged items items'
  fields : ∃ entries entries', plan.fieldTable.entries? = some entries ∧
    plan'.fieldTable.entries? = some entries' ∧ entries.Perm entries' ∧
    (entries.map fun e => e.1.word).Nodup

/-- A rearranged collection leaves the same credentials in another order. -/
theorem declared_of_rearranged {start registry : Registry}
    (hstart : (Entries.keys start.credentials).Nodup) {credentials credentials' : Value}
    {items items' : List Registry.Item} (hitems : Registry.itemsOf? credentials = some items)
    (hitems' : Registry.itemsOf? credentials' = some items')
    (h : Registry.Rearranged items items')
    (hok : (declared start credentials).outcome = .ok registry) :
    ∃ registry', (declared start credentials').outcome = .ok registry' ∧
      registry.declared.Perm registry'.declared := by
  obtain ⟨items₀, hitems₀, hitemsOk, rfl⟩ := declared_ok_iff.mp hok
  cases hitems.symm.trans hitems₀
  obtain ⟨hitemsOk', hperm⟩ := Registry.perm_of_rearranged h hstart hitemsOk
  exact ⟨_, declared_ok_iff.mpr ⟨items', hitems', hitemsOk', rfl⟩, hperm.map _⟩

/-- Field requirements in another order, checked against the same credentials in another
order, are read as the same field policies. -/
theorem readAll_of_perm {owner table table' : Value} {entries entries' : List (Value × Value)}
    (hentries : table.entries? = some entries) (hentries' : table'.entries? = some entries')
    (hperm : entries.Perm entries') {compiled compiled' : List Capability}
    (hcompiled : compiled.Perm compiled') {checked : List FieldPolicy}
    (hok : FieldPolicy.readAll owner (fun name => .ok (compiled.any (·.name == name))) table =
      .ok checked) :
    ∃ checked', FieldPolicy.readAll owner
      (fun name => .ok (compiled'.any (·.name == name))) table' = .ok checked' ∧
      checked.Perm checked' := by
  have hknown : (fun name : Value => compiled.any (·.name == name)) =
      fun name => compiled'.any (·.name == name) :=
    funext fun name => hcompiled.any_eq
  simp only [FieldPolicy.readAll, hentries, hentries', funext_iff.mp hknown] at hok ⊢
  exact mapM_perm hperm hok

/-- **Order does not matter.** When a plan of texts builds, so does every plan that says
the same in another order, and to a policy with the same rules. -/
theorem build_of_reorders {plan plan' : Plan} (h : plan.Reorders plan') (htexts : plan.Texts)
    {p : Policy} (hok : (build plan).outcome = .ok p) :
    ∃ p', (build plan').outcome = .ok p' ∧ p.SameRules p' := by
  obtain ⟨items, items', hitems, hitems', hrearranged⟩ := h.credentials
  obtain ⟨entries, entries', hentries, hentries', hentriesPerm, hnodup⟩ := h.fields
  obtain ⟨_, hbuilt⟩ := built_of_build hok
  obtain ⟨hentity, registry, hdeclared, compiled, hcompiled, checked, hchecked, rfl⟩ :=
    build_ok_iff.mp hok
  have hstart := Registry.holds_startRegistry plan.entityType plan.includeDefaults.isTrue
    plan.softDelete.isTrue
  have hholds : registry.Holds plan.merged := by
    obtain ⟨items₀, hitems₀, hitemsOk, rfl⟩ := declared_ok_iff.mp hdeclared
    rw [Plan.merged, Plan.items, hitems₀]
    exact hstart.addAll items₀ hitemsOk
  obtain ⟨registry', hdeclared', hregistry⟩ :=
    declared_of_rearranged hstart.nodup hitems hitems' hrearranged hdeclared
  obtain ⟨compiled', hcompiled', hcompiledPerm⟩ :=
    Declared.compile_perm hholds.wellFormed_declared hregistry
      (hholds.within_declared htexts.merged) hcompiled
  obtain ⟨checked', hchecked', hcheckedPerm⟩ :=
    readAll_of_perm hentries hentries' hentriesPerm hcompiledPerm hchecked
  refine ⟨⟨plan.entityType, compiled', checked', (policyHooks plan').freeze, plan.softDelete,
    strictness plan⟩, ?_, ?_⟩
  · refine build_ok_iff.mpr ⟨h.entityType ▸ hentity, registry', ?_, compiled', ?_, checked', ?_, ?_⟩
    · rw [← h.entityType, ← h.softDelete, ← h.includeDefaults]
      exact hdeclared'
    · rw [← h.entityType]
      exact hcompiled'
    · rw [← h.entityType]
      exact hchecked'
    · rw [← h.entityType, ← h.softDelete, ← h.strict]
  · obtain ⟨hfields, hfieldNames⟩ := FieldPolicy.fields_of_readAll hentries hchecked
    have hfieldWords : (checked.map fun f => f.field.word).Nodup := by
      have heq := congrArg (List.map Value.word) hfields
      rw [List.map_map, List.map_map] at heq
      exact heq ▸ hnodup
    exact
      { entityType := rfl
        credentials := hcompiledPerm
        fields := hcheckedPerm
        softDelete := rfl
        strict := rfl
        find? := fun name => find?_eq_of_perm hcompiledPerm fun a ha b hb =>
          eq_of_same_name (fun c hc => hbuilt.isName hc) hbuilt.nodup_words ha hb
        fieldPolicy? := fun field => find?_eq_of_perm hcheckedPerm fun a ha b hb =>
          eq_of_same_name hfieldNames hfieldWords ha hb }

end Policy

end Clearance
