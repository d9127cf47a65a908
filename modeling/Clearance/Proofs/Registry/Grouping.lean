import Clearance.Proofs.Policy.Acceptance
import Clearance.Proofs.Registry.History

/-! Declaring credentials in groups.

Merging is associative (`Typed.merge_assoc`), although a credential that nothing is merged over
stays as it was given, duplicates included. So a batch may be collected in a registry of its own
first: what that registry lists under each name merges over another one as the credentials of
that name do one after another, and its names come in the order in which these were first
declared (`addAll_snapshot`). Policies are built alike from both (`build_of_collected`). -/
namespace Clearance

namespace Credential

/-! ## Merging three credentials -/

theorem eq_of_parts {a b : Credential} (hname : a.name = b.name) (hlabel : a.label = b.label)
    (hdescription : a.description = b.description) (h : ∀ r, a.relation r = b.relation r) :
    a = b := by
  have h1 := h .implies
  have h2 := h .impliedBy
  have h3 := h .subrights
  have h4 := h .subrightOf
  cases a
  cases b
  simp only [relation] at *
  subst hname hlabel hdescription h1 h2 h3 h4
  rfl

theorem prefer_assoc (a b c : Caption Value) :
    prefer c (prefer b a) = prefer (prefer c b) a := by
  cases c with
  | given v => cases v <;> rfl
  | loose t => rfl

/-- Three tuples of names have one union, whichever two are united first. -/
theorem mergeRelation_assoc {x y z xy yz : Value} {xs ys zs : List Value}
    (hx : x = .tuple xs ∧ ∀ v ∈ xs, v.IsName) (hy : y = .tuple ys ∧ ∀ v ∈ ys, v.IsName)
    (hz : z = .tuple zs ∧ ∀ v ∈ zs, v.IsName) (hxy : mergeRelation x y = .ok xy)
    (hyz : mergeRelation y z = .ok yz) : mergeRelation xy z = mergeRelation x yz := by
  obtain ⟨rfl, hx⟩ := hx
  obtain ⟨rfl, hy⟩ := hy
  obtain ⟨rfl, hz⟩ := hz
  have hfront := List.forall_mem_append.mpr ⟨hx, hy⟩
  have hback := List.forall_mem_append.mpr ⟨hy, hz⟩
  rw [mergeRelation_of_tuples hx hy] at hxy
  rw [mergeRelation_of_tuples hy hz] at hyz
  cases hxy
  cases hyz
  rw [mergeRelation_of_tuples (Value.isName_of_mem_distinct hfront) hz,
    mergeRelation_of_tuples hx (Value.isName_of_mem_distinct hback),
    Value.distinct_distinct_append hfront, Value.distinct_append_distinct hx hback,
    List.append_assoc]

/-- **Merging is associative.** -/
theorem Typed.merge_assoc {a b c : Credential} (ha : a.Typed) (hb : b.Typed) (hc : c.Typed) :
    ∃ ab bc abc, a.merge b = .ok ab ∧ b.merge c = .ok bc ∧
      ab.merge c = .ok abc ∧ a.merge bc = .ok abc ∧ ab.Typed ∧ bc.Typed := by
  obtain ⟨ab, hab, htab⟩ := ha.merge hb
  obtain ⟨bc, hbc, htbc⟩ := hb.merge hc
  obtain ⟨left, hleft, -⟩ := htab.merge hc
  obtain ⟨right, hright, -⟩ := ha.merge htbc
  have mab := isMerge_of_merge hab
  have mbc := isMerge_of_merge hbc
  have mleft := isMerge_of_merge hleft
  have mright := isMerge_of_merge hright
  have heq : left = right := by
    refine eq_of_parts ?_ ?_ ?_ fun r => ?_
    · rw [mleft.name, mab.name, mright.name]
    · rw [mleft.label, mab.label, mright.label, mbc.label, prefer_assoc]
    · rw [mleft.description, mab.description, mright.description, mbc.description, prefer_assoc]
    · obtain ⟨xs, hx⟩ := ha.relations r
      obtain ⟨ys, hy⟩ := hb.relations r
      obtain ⟨zs, hz⟩ := hc.relations r
      have hassoc := mergeRelation_assoc hx hy hz (mab.relations r) (mbc.relations r)
      rw [mleft.relations r, mright.relations r] at hassoc
      exact Except.ok.inj hassoc
  exact ⟨ab, bc, left, hab, hbc, hleft, heq ▸ hright, htab, htbc⟩

/-! ## Merging what was merged before -/

/-- What credentials come to over one of them merges over another one as they do over what
these two come to. -/
theorem mergeAll_merge {old first base final : Credential} {cs : List Credential}
    (hold : old.Typed) (hfirst : first.Typed) (hcs : ∀ c ∈ cs, c.Typed)
    (hbase : old.merge first = .ok base) (hfinal : mergeAll (some first) cs = .ok (some final)) :
    mergeAll (some base) cs = (old.merge final).map some := by
  induction cs generalizing first base with
  | nil =>
    cases hfinal
    rw [hbase]
    rfl
  | cons c rest ih =>
    rw [List.forall_mem_cons] at hcs
    obtain ⟨oldFirst, firstC, whole, hof, hfc, hleft, hright, -, htyped⟩ :=
      hold.merge_assoc hfirst hcs.1
    cases hbase.symm.trans hof
    rw [mergeAll, mergeOnto, hfc] at hfinal
    rw [mergeAll, mergeOnto, hleft]
    exact ih htyped hcs.2 hright hfinal

theorem exists_of_mergeAll {first : Credential} {cs : List Credential} {merged : Option Credential}
    (h : mergeAll (some first) cs = .ok merged) : ∃ final, merged = some final := by
  induction cs generalizing first with
  | nil => exact ⟨first, (Except.ok.inj h).symm⟩
  | cons c rest ih =>
    obtain ⟨next, -, hrest⟩ := bind_eq_ok_iff.mp h
    exact ih hrest

theorem mergeAll_singleton (old c : Credential) :
    mergeAll (some old) [c] = (old.merge c).map some := by
  rw [mergeAll, mergeOnto]
  cases old.merge c <;> rfl

/-- Credentials may be merged with each other before they are merged over what was there. -/
theorem mergeAll_of_merged {kept merged : Option Credential} {cs : List Credential}
    (hkept : ∀ old, kept = some old → old.Typed) (hcs : ∀ c ∈ cs, c.Typed)
    (h : mergeAll none cs = .ok merged) : mergeAll kept merged.toList = mergeAll kept cs := by
  cases cs with
  | nil =>
    cases h
    rfl
  | cons first rest =>
    rw [List.forall_mem_cons] at hcs
    obtain ⟨final, rfl⟩ := exists_of_mergeAll h
    cases kept with
    | none => exact h.symm
    | some old =>
      obtain ⟨base, hbase, -⟩ := (hkept old rfl).merge hcs.1
      rw [Option.toList_some, mergeAll_singleton, mergeAll, mergeOnto, hbase]
      exact (mergeAll_merge (hkept old rfl) hcs.1 hcs.2 hbase h).symm

/-- A credential that every registry takes: one as code declares it, with an acceptable name. -/
structure Valid (c : Credential) : Prop extends c.Typed where
  accepted : Name.Accepted c.name.word

end Credential

namespace Registry

variable {r : Registry}

/-! ## Valid credentials -/

/-- The credentials of a registry as items under their names. -/
def snapshot (r : Registry) : List Item :=
  r.credentials.map fun e => ⟨some e.2.name, e.2.toValue⟩

theorem itemsOf?_toValue (r : Registry) : itemsOf? r.toValue = some r.snapshot := by
  simp [itemsOf?, toValue, snapshot, List.map_map, Function.comp_def]

theorem update_toValue (r fresh : Registry) : r.update fresh.toValue = r.addAll fresh.snapshot := by
  rw [update, itemsOf?_toValue]

theorem credentialsOf_snapshot (r : Registry) :
    credentialsOf r.snapshot = r.credentials.map Prod.snd := by
  simp [credentialsOf, snapshot, List.filterMap_map, Function.comp_def]

/-- Items of valid credentials, under no key but their name, are all taken. -/
theorem addAll_of_valid (h : r.Typed) {items : List Item}
    (hitems : ∀ item ∈ items, ∃ c : Credential, Credential.ofValue? item.value = some c ∧
      c.Valid ∧ ∀ key, item.key = some key → key.text? = some c.name.word) :
    (r.addAll items).2.outcome = .ok () := by
  have htyped : ∀ item ∈ items, item.Typed := by
    intro item hi
    obtain ⟨c, hc, hvalid, -⟩ := hitems item hi
    exact ⟨c, hc, hvalid.toTyped⟩
  refine addAll_of_named h htyped fun item hi c hc => ?_
  obtain ⟨c', hc', hvalid, hkey⟩ := hitems item hi
  cases hc.symm.trans hc'
  exact ⟨hvalid.accepted, hkey⟩

theorem addAll_unkeyed_of_valid (h : r.Typed) {cs : List Credential} (hcs : ∀ c ∈ cs, c.Valid) :
    (r.addAll (unkeyed cs)).2.outcome = .ok () ∧ (r.addAll (unkeyed cs)).1.Typed := by
  constructor
  · refine addAll_of_valid h ?_
    rw [unkeyed, List.forall_mem_map]
    exact fun c hc => ⟨c, rfl, hcs c hc, by simp⟩
  · refine h.addAll ?_
    rw [unkeyed, List.forall_mem_map]
    exact fun c hc => ⟨c, rfl, (hcs c hc).toTyped⟩

/-! ## What a collection leaves as a whole -/

/-- New names come behind the old ones, in the order in which they came first. -/
theorem keys_addAll {names : List String} (h : Entries.keys r.credentials = names.eraseDups)
    {items : List Item} (hok : (r.addAll items).2.outcome = .ok ()) :
    Entries.keys (r.addAll items).1.credentials =
      (names ++ (credentialsOf items).map fun c => c.name.word).eraseDups := by
  induction items generalizing r names with
  | nil => simpa [credentialsOf, Registry.addAll] using h
  | cons item rest ih =>
    obtain ⟨f, hf⟩ | ⟨kept, r', hstep⟩ := addItem_cases r item
    · rw [(addAll_cons_of_error hf rest).2] at hok
      cases hok
    · obtain ⟨hfinal, houtcome⟩ := addAll_cons_of_answers hstep rest
      obtain ⟨name, c, haccept, -, rfl⟩ := add_answers_iff.mp (addItem_answers_iff.mp hstep).2
      obtain ⟨-, rfl⟩ := Value.text?_eq_some_iff.mp (accept_eq_ok haccept).2.1
      rw [hfinal, credentialsOf_cons haccept, List.map_cons, List.append_cons]
      exact ih (Entries.keys_put_of_eraseDups h _ kept) (houtcome.symm.trans hok)

/-- What two accepted collections leave is the same when they name the same credentials in the
same order of first names, and the credentials of each name merge to the same. -/
theorem addAll_eq_of_merges (hnodup : (Entries.keys r.credentials).Nodup) {items items' : List Item}
    (hok : (r.addAll items).2.outcome = .ok ()) (hok' : (r.addAll items').2.outcome = .ok ())
    (hnames : ((credentialsOf items).map fun c => c.name.word).eraseDups =
      ((credentialsOf items').map fun c => c.name.word).eraseDups)
    (hmerges : ∀ name,
      Credential.mergeAll (r.find? name) (Credential.ofName name (credentialsOf items)) =
        Credential.mergeAll (r.find? name) (Credential.ofName name (credentialsOf items'))) :
    (r.addAll items).1 = (r.addAll items').1 := by
  have hstart := (Value.eraseDups_of_nodup hnodup).symm
  have hkeys : Entries.keys (r.addAll items).1.credentials =
      Entries.keys (r.addAll items').1.credentials := by
    rw [keys_addAll hstart hok, keys_addAll hstart hok', ← Value.eraseDups_append_eraseDups_right,
      hnames, Value.eraseDups_append_eraseDups_right]
  have htables : (r.addAll items).1.credentials = (r.addAll items').1.credentials := by
    refine Entries.eq_of_lookup hkeys (nodup_keys_addAll hnodup items) fun name => ?_
    have hmerge := hmerges name
    rw [find?_addAll hok, find?_addAll hok'] at hmerge
    exact Except.ok.inj hmerge
  have howner := (entityType_addAll r items).trans (entityType_addAll r items').symm
  cases hleft : (r.addAll items).1
  cases hright : (r.addAll items').1
  rw [hleft, hright] at htables howner
  cases htables
  cases howner
  rfl

/-! ## A batch in a registry of its own -/

/-- The credentials of one name in a registry are the one that stands there. -/
theorem ofName_snapshot {cs : List Credential} (h : r.Holds cs) (name : String) :
    Credential.ofName name (credentialsOf r.snapshot) = (r.find? name).toList := by
  have hkeyed : (r.credentials.filter fun e => decide (e.2.name.text? = some name)) =
      r.credentials.filter fun e => e.1 == name := by
    refine List.filter_congr fun e he => ?_
    rw [h.keyed e he, Bool.eq_iff_iff]
    simp
  rw [find?, ← Entries.filter_key h.nodup, ← hkeyed, credentialsOf_snapshot, Credential.ofName,
    List.filter_map]
  rfl

/-- The names in a registry are those of the credentials that it was made of. -/
theorem Reflects.words_snapshot {cs : List Credential} (h : r.Reflects cs) :
    ((credentialsOf r.snapshot).map fun c => c.name.word) =
      (cs.map fun c => c.name.word).eraseDups := by
  rw [← h.order, ← h.word_declared, credentialsOf_snapshot, declared, List.map_map, List.map_map]
  rfl

/-- What a registry collected of valid credentials is valid, and stands under its name. -/
theorem valid_of_mem_snapshot {cs : List Credential} (h : r.Reflects cs) (htyped : r.Typed) :
    ∀ item ∈ r.snapshot, ∃ c : Credential, Credential.ofValue? item.value = some c ∧
      c.Valid ∧ ∀ key, item.key = some key → key.text? = some c.name.word := by
  rw [snapshot, List.forall_mem_map]
  intro e he
  have hkept := htyped e.1 e.2 ((Entries.lookup_eq_some_iff h.nodup).mpr he)
  have hword : e.2.name.word = e.1 := (Value.text?_eq_some_iff.mp (h.keyed e he)).2
  refine ⟨e.2, rfl, ⟨hkept, hword ▸ h.acceptable e he⟩, ?_⟩
  rintro key ⟨⟩
  exact hkept.name.text?

/-- **A batch may be collected first.** A registry takes what another one collected of valid
credentials, and is left as if it had taken these one after another. -/
theorem addAll_snapshot (h : r.Typed) (hnodup : (Entries.keys r.credentials).Nodup)
    {cs : List Credential} (hcs : ∀ c ∈ cs, c.Valid) (owner : Value) :
    (r.addAll ((empty owner).addAll (unkeyed cs)).1.snapshot).2.outcome = .ok () ∧
      (r.addAll ((empty owner).addAll (unkeyed cs)).1.snapshot).1 =
        (r.addAll (unkeyed cs)).1 := by
  obtain ⟨hfresh, htyped⟩ := addAll_unkeyed_of_valid (typed_empty owner) hcs
  have hreflects : ((empty owner).addAll (unkeyed cs)).1.Reflects cs := by
    have hall := (reflects_empty owner).addAll (unkeyed cs)
    rwa [taken_of_ok hfresh, credentialsOf_unkeyed, List.nil_append] at hall
  have hok := addAll_of_valid h (valid_of_mem_snapshot hreflects htyped)
  refine ⟨hok, addAll_eq_of_merges hnodup hok (addAll_unkeyed_of_valid h hcs).1 ?_ fun name => ?_⟩
  · rw [hreflects.words_snapshot, credentialsOf_unkeyed,
      Value.eraseDups_of_nodup (Value.nodup_eraseDups _)]
  · rw [ofName_snapshot hreflects.toHolds, credentialsOf_unkeyed]
    exact Credential.mergeAll_of_merged (h name)
      (fun c hc => (hcs c (List.mem_of_mem_filter hc)).toTyped) (hreflects.merges name)

theorem itemsOf?_list (cs : List Credential) :
    itemsOf? (.list (cs.map Credential.toValue)) = some (unkeyed cs) :=
  congrArg some (List.map_map ..)

end Registry

namespace Policy

open Registry

/-- Building takes credentials from a list as it does from a registry that collected them. -/
theorem build_of_collected (plan : Plan) {cs : List Credential} (hcs : ∀ c ∈ cs, c.Valid)
    (owner : Value) :
    (build { plan with credentials := ((empty owner).addAll (unkeyed cs)).1.toValue }).outcome =
      (build { plan with credentials := .list (cs.map Credential.toValue) }).outcome := by
  have hdeclared : ∀ includeDefaults softDelete,
      (declared (startRegistry plan.entityType includeDefaults softDelete)
        ((empty owner).addAll (unkeyed cs)).1.toValue).outcome =
      (declared (startRegistry plan.entityType includeDefaults softDelete)
        (.list (cs.map Credential.toValue))).outcome := by
    intro includeDefaults softDelete
    have htyped := typed_startRegistry plan.entityType includeDefaults softDelete
    have hnodup := (holds_startRegistry plan.entityType includeDefaults softDelete).nodup
    obtain ⟨hok, hleft⟩ := addAll_snapshot htyped hnodup hcs owner
    rw [outcome_declared _ (itemsOf?_toValue _), outcome_declared _ (itemsOf?_list cs), hok, hleft,
      (addAll_unkeyed_of_valid htyped hcs).1]
  rw [outcome_build, outcome_build, hdeclared]
  rfl

/-- **Batches may be grouped freely.** Merging credentials as code declares them is associative.
So a registry that takes some valid credentials, and then what another registry collected of
more, is left as if it had taken these one after another, with the same names in the same
order; and a policy is built from a registry that collected a list as it is from the list. -/
theorem regroup_agrees :
    (∀ a b c : Credential, a.Typed → b.Typed → c.Typed → ∃ ab bc abc,
      a.merge b = .ok ab ∧ b.merge c = .ok bc ∧ ab.merge c = .ok abc ∧ a.merge bc = .ok abc) ∧
    (∀ (r : Registry) (cs more : List Credential) (owner : Value), r.Typed →
      (Entries.keys r.credentials).Nodup → (∀ c ∈ cs, c.Valid) → (∀ c ∈ more, c.Valid) →
      let fresh := ((empty owner).addAll (unkeyed more)).1
      let first := r.addAll (unkeyed cs)
      first.2.outcome = .ok () ∧
        (first.1.addAll (unkeyed more)).2.outcome = .ok () ∧
        (first.1.update fresh.toValue).2.outcome = .ok () ∧
        (first.1.update fresh.toValue).1 = (first.1.addAll (unkeyed more)).1) ∧
    (∀ (plan : Plan) (cs : List Credential) (owner : Value), (∀ c ∈ cs, c.Valid) →
      let filled := ((empty owner).addAll (unkeyed cs)).1
      (build { plan with credentials := filled.toValue }).outcome =
        (build { plan with credentials := .list (cs.map Credential.toValue) }).outcome) := by
  refine ⟨?_, ?_, fun plan cs owner hcs => build_of_collected plan hcs owner⟩
  · intro a b c ha hb hc
    obtain ⟨ab, bc, abc, hab, hbc, hleft, hright, -⟩ := ha.merge_assoc hb hc
    exact ⟨ab, bc, abc, hab, hbc, hleft, hright⟩
  · intro r cs more owner htyped hnodup hcs hmore
    obtain ⟨hfirst, hfirstTyped⟩ := addAll_unkeyed_of_valid htyped hcs
    obtain ⟨hok, hleft⟩ :=
      addAll_snapshot hfirstTyped (nodup_keys_addAll hnodup (unkeyed cs)) hmore owner
    refine ⟨hfirst, (addAll_unkeyed_of_valid hfirstTyped hmore).1, ?_, ?_⟩
    · rw [update_toValue]
      exact hok
    · rw [update_toValue]
      exact hleft

/-- Approving is declared twice, the first time with a duplicate, and archiving in between. -/
def approvals : List Credential :=
  [.ofNames "approve" (some (.given "Approve")) none ["archive", "archive"] [] [] [],
    .ofNames "archive" none none [] [] [] [],
    .ofNames "approve" none (some (.given "Can approve")) ["archive"] [] [] []]

theorem valid_approvals : ∀ c ∈ approvals, c.Valid := by
  simp only [approvals, List.forall_mem_cons, List.not_mem_nil, false_imp_iff, implies_true,
    and_true]
  refine ⟨⟨Credential.typed_ofNames .., ?_⟩, ⟨Credential.typed_ofNames .., ?_⟩,
    Credential.typed_ofNames .., ?_⟩
  all_goals exact ⟨by decide +kernel, by decide⟩

/-- Notes without the built-in credentials. -/
def bareNotes : Plan where
  entityType := .text "Note"
  includeDefaults := .bool false

/-- The built-in credentials take the approvals as they were collected before, approving merges
with itself in either grouping, and a policy of notes is built from what was collected. -/
theorem regroup_approvals :
    (∀ c ∈ approvals, c.Valid) ∧
    (let start := startRegistry (.text "Note") true true
     let fresh := ((empty .null).addAll (unkeyed approvals)).1
     (Entries.keys start.credentials).Nodup ∧
      (start.update fresh.toValue).1 = (start.addAll (unkeyed approvals)).1) ∧
    (∃ a c, approvals.head? = some a ∧ approvals.getLast? = some c ∧ ∃ ac ca aca,
      a.merge c = .ok ac ∧ c.merge a = .ok ca ∧ ac.merge a = .ok aca ∧ a.merge ca = .ok aca) ∧
    ∃ p, (build { bareNotes with
      credentials := ((empty .null).addAll (unkeyed approvals)).1.toValue }).outcome = .ok p := by
  obtain ⟨hassoc, hupdate, hbuild⟩ := regroup_agrees
  have hnodup := (holds_startRegistry (.text "Note") true true).nodup
  refine ⟨valid_approvals, ⟨hnodup, ?_⟩, ?_, ?_⟩
  · exact (hupdate _ [] approvals .null (typed_startRegistry _ _ _) hnodup (by simp)
      valid_approvals).2.2.2
  · refine ⟨_, _, rfl, rfl, ?_⟩
    exact hassoc _ _ _ (Credential.typed_ofNames ..) (Credential.typed_ofNames ..)
      (Credential.typed_ofNames ..)
  · have hanswers : ((build { bareNotes with
        credentials := .list (approvals.map Credential.toValue) }).outcome.toOption.any
          fun _ => true) = true := by decide +kernel
    obtain ⟨p, hp, -⟩ := exists_ok_of_any hanswers
    exact ⟨p, (hbuild bareNotes approvals .null valid_approvals).trans hp⟩

end Policy

end Clearance
