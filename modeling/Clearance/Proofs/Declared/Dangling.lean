import Clearance.Proofs.Declared
import Clearance.Proofs.Graph.Merges

/-! Which reference is reported when one dangles, and that otherwise none ever does.

Compiling refuses a mapping from names to credentials exactly when it lists something that is
not one of its keys, and reports the first such reference: in the order of the mapping, then of
the relations, then of the texts (`FirstUnknown`). Nothing is merged before that. If all that
is listed is a key, every name that a merge looks up or places is a key as well, in every pass
(`compile_dangling`). -/
namespace Clearance.Declared

/-- A text is a key of a mapping. -/
def HasKey (source : Declared) (s : String) : Prop :=
  s ∈ source.map fun e => e.1.word

instance (source : Declared) : DecidablePred source.HasKey :=
  fun s => inferInstanceAs (Decidable (s ∈ source.map fun e => e.1.word))

/-- The least text under a relation of a credential that is no key. -/
structure LeastUnknown (source : Declared) (c : Credential) (r : Relation) (reference : Value) :
    Prop where
  listed : ∃ items, (c.relation r).members? = some items ∧ reference ∈ items
  unknown : ¬ source.HasKey reference.word
  least : ∀ s, c.Lists r s → s < reference.word → source.HasKey s

/-- The first reference to something that is no key: everything that the credentials before it
list is a key, and everything under the relations of its own credential before it, and every
smaller text under its own relation. -/
def FirstUnknown (source : Declared) (name : Value) (r : Relation) (reference : Value) : Prop :=
  StopsIn (fun e => ∀ s t, e.2.Lists s t → source.HasKey t)
    (fun e => e.1 = name ∧ StopsIn (fun s => ∀ t, e.2.Lists s t → source.HasKey t)
      (fun s => s = r ∧ source.LeastUnknown e.2 s reference) Relation.all) source

variable {source : Declared}

/-! ## Reading the graph back -/

/-- The entries of the graph of a mapping, one for each of its own. -/
theorem forall₂_graph {g : Graph Value} (hok : source.graph = .ok g) :
    List.Forall₂ (fun e e' => e'.1 = e.1 ∧ ∀ r, e.2.sortedRelation r = .ok (e'.2.get r))
      source g := by
  refine (mapM_eq_ok_iff.mp hok).imp fun e e' hentry => ?_
  obtain ⟨links, hlinks, heq⟩ := bind_eq_ok_iff.mp hentry
  cases heq
  exact ⟨rfl, Credential.sortedRelation_of_sortedLinks hlinks⟩

variable {c : Credential} {r : Relation} {names : List Value}

/-- What is sorted is what was listed. -/
theorem sortedRelation_spec (h : c.ListsNames) (hok : c.sortedRelation r = .ok names) :
    (∀ v ∈ names, v.IsName) ∧ Ascending.Strict (names.map Value.word) ∧
      ∀ s, s ∈ names.map Value.word ↔ c.Lists r s := by
  obtain ⟨names', hok', hspec⟩ := Credential.sortedRelation_of_listsNames h r
  cases hok.symm.trans hok'
  exact hspec

/-- In an ascending relation the first reference that is no key is the least one. -/
theorem leastUnknown_of_stopsIn {declared : List Value} (h : c.ListsNames)
    (hdeclared : ∀ v : Value, v.IsName → (declared.contains v = true ↔ source.HasKey v.word))
    (hok : c.sortedRelation r = .ok names) {x : Value}
    (hstop : StopsIn (declared.contains · = true) (fun y => y = x ∧ ¬ declared.contains y = true)
      names) : source.LeastUnknown c r x := by
  obtain ⟨hnames, hstrict, hlists⟩ := sortedRelation_spec h hok
  obtain ⟨before, y, after, rfl, hbefore, rfl, hunknown⟩ := hstop
  simp only [List.forall_mem_append, List.forall_mem_cons] at hnames
  refine ⟨?_, fun hkey => hunknown ((hdeclared y hnames.2.1).mpr hkey), ?_⟩
  · obtain ⟨items, hitems, hmem⟩ := Credential.mem_of_sortedRelation hok
    exact ⟨items, hitems, hmem y (List.mem_append_right _ List.mem_cons_self)⟩
  · intro s hs hlt
    -- a smaller text stands before the reference, and all that stands there is declared
    rw [List.map_append, List.map_cons] at hstrict
    have hbehind := (Ascending.strict_cons.mp (List.pairwise_append.mp hstrict).2.1).1
    have hmem := (hlists s).mpr hs
    rw [List.map_append, List.map_cons, List.mem_append, List.mem_cons] at hmem
    rcases hmem with hmem | rfl | hmem
    · obtain ⟨v, hv, rfl⟩ := List.mem_map.mp hmem
      exact (hdeclared v (hnames.1 v hv)).mp (hbefore v hv)
    · exact absurd hlt (String.lt_irrefl _)
    · exact absurd hlt (String.lt_asymm (compareOfLessAndEq_eq_lt.mp (hbehind s hmem)))

/-- **What is reported.** The graph of a mapping reports its first unknown reference. -/
theorem firstUnknown_of_dangling? (h : source.WellFormed) {g : Graph Value}
    (hok : source.graph = .ok g) (hg : Represents g source) {name reference : Value}
    (hfound : g.dangling? g.names = some (name, r, reference)) :
    source.FirstUnknown name r reference := by
  have hdeclared : ∀ v : Value, v.IsName → (g.names.contains v = true ↔ source.HasKey v.word) :=
    fun v hv => contains_names_iff hg hv
  have hknown : ∀ {c : Credential} {s : Relation} {names : List Value}, c.ListsNames →
      c.sortedRelation s = .ok names → (∀ v ∈ names, g.names.contains v = true) →
      ∀ t, c.Lists s t → source.HasKey t := by
    intro c s names hc hsorted hall t ht
    obtain ⟨hnames, -, hlists⟩ := sortedRelation_spec hc hsorted
    obtain ⟨v, hv, rfl⟩ := List.mem_map.mp ((hlists t).mpr ht)
    exact (hdeclared v (hnames v hv)).mp (hall v hv)
  have hentries := (List.forall₂_and_left source g).mpr ⟨h.names, forall₂_graph hok⟩
  refine StopsIn.of_forall₂ hentries ?_ ?_ (Graph.stopsIn_of_dangling? hfound)
  · rintro e e' ⟨hc, -, hsorted⟩ hall s t ht
    exact hknown hc (hsorted s) (hall s) t ht
  · rintro e e' ⟨hc, heq, hsorted⟩ ⟨rfl, hstop⟩
    refine ⟨heq.symm, hstop.imp ?_ ?_⟩
    · intro s hall
      exact hknown hc (hsorted s) hall
    · rintro s ⟨rfl, hfirst⟩
      exact ⟨rfl, leastUnknown_of_stopsIn hc hdeclared (hsorted _) hfirst⟩

/-! ## Compiling -/

theorem known_iff_hasKey (h : source.WellFormed) :
    source.Known ↔ ∀ e ∈ source, ∀ r s, e.2.Lists r s → source.HasKey s := by
  constructor
  · intro hknown e he r s hs
    exact hknown r e.1.word s ((lists_of_mem h he).mpr hs)
  · rintro hall r a b ⟨e, he, -, hb⟩
    exact hall e he r b hb

/-- A graph without a dangling reference has its keys for names, and lists keys alone. -/
theorem within_keys {g : Graph Value} (hg : Represents g source)
    (hnone : g.dangling? g.names = none) :
    g.Within fun v => v.IsName ∧ source.HasKey v.word := by
  intro e he
  obtain ⟨hname, hlisted⟩ := hg.within e he
  refine ⟨⟨hname, ?_⟩, fun r v hv => ⟨hlisted r v hv, ?_⟩⟩
  · have hmem : e.1 ∈ source.map Prod.fst := hg.names ▸ List.mem_map_of_mem he
    obtain ⟨e', he', heq⟩ := List.mem_map.mp hmem
    exact List.mem_map.mpr ⟨e', he', congrArg Value.word heq⟩
  · exact (contains_names_iff hg (hlisted r v hv)).mp
      (Graph.dangling?_eq_none_iff.mp hnone e he r v hv)

variable {g : Graph Value} {owner : Value}

/-- Compiling rejects the reference that dangles first in the graph, and no other. Nothing is
rejected on behalf of an owner that cannot be written out. -/
theorem compile_rejects_iff {name reference : Value} (hok : source.graph = .ok g)
    (hg : Represents g source) :
    (source.compile owner).outcome =
        .error (.rejected (.unknownReference owner name r reference)) ↔
      owner.writable = true ∧ g.dangling? g.names = some (name, r, reference) := by
  cases hfound : g.dangling? g.names with
  | none =>
    rw [compile_of_closed hok hg.within hfound]
    simp
  | some found =>
    obtain ⟨name', r', reference'⟩ := found
    rw [compile_of_dangling hok hg.within hfound]
    have hwritten :
        (∃ v ∈ (Rejection.unknownReference owner name' r' reference').written,
          v.writable = false) ↔ owner.writable = false := written_of_dangling hg.within hfound
    by_cases howner : owner.writable = true
    · rw [refuse_of_writable fun v hv => ?_]
      · simp [howner]
      · by_contra hv'
        simp [hwritten.mp ⟨v, hv, by simpa using hv'⟩] at howner
    · obtain ⟨v, hv, hunwritable⟩ := hwritten.mpr (by simpa using howner)
      rw [refuse_of_unwritable hv hunwritable]
      simp [howner]

/-- Without a dangling reference every merge looks up a key, and places keys among keys. -/
theorem keys_of_merges (hg : Represents g source) (hnone : g.dangling? g.names = none)
    {before after : List (Merge Value)} {m : Merge Value}
    (hmerges : g.merges = before ++ m :: after) :
    (before.foldl Graph.merge g).names.contains m.target = true ∧
      m.Within (fun v => v.IsName ∧ source.HasKey v.word) ∧
      (before.foldl Graph.merge g).Within fun v => v.IsName ∧ source.HasKey v.word := by
  obtain ⟨hm, hbefore⟩ := Graph.within_merges (within_keys hg hnone) hmerges
  refine ⟨?_, hm, hbefore⟩
  rw [Graph.names_foldl_merge]
  exact (contains_names_iff hg hm.target.1).mpr hm.target.2

/-- Where a reference dangles, compiling fails: with a rejection, or over an owner that the
rejection cannot write out. -/
theorem compile_of_unknown (h : source.WellFormed) (owner : Value)
    (hunknown : ∃ e ∈ source, ∃ r s, e.2.Lists r s ∧ ¬ source.HasKey s) :
    ∃ name r reference, (source.compile owner).outcome =
      if owner.writable then .error (.rejected (.unknownReference owner name r reference))
      else .error .illFormed := by
  obtain ⟨g, hgraph, hg⟩ := graph_represents h
  obtain ⟨e, he, r, s, hs, hmissing⟩ := hunknown
  obtain ⟨⟨name, r', reference⟩, hfound⟩ := Option.ne_none_iff_exists'.mp
    (mt ((dangling?_eq_none_iff_known h hg).trans (known_iff_hasKey h)).mp
      fun hall => hmissing (hall e he r s hs))
  refine ⟨name, r', reference, ?_⟩
  split
  · rename_i howner
    exact (compile_rejects_iff hgraph hg).mpr ⟨howner, hfound⟩
  · rename_i howner
    rw [compile_of_dangling hgraph hg.within hfound]
    obtain ⟨v, hv, hunwritable⟩ := (written_of_dangling hg.within hfound).mpr
      (Bool.not_eq_true _ ▸ howner)
    exact refuse_of_unwritable hv hunwritable

/-- **Dangling references.** A mapping from names to credentials is refused exactly when it lists
something that is no key, and then for the first such reference, before anything is merged. On
behalf of an owner that cannot be written out, the refusal itself fails. Else every merge of every
pass looks up a key, and whatever is listed by then, or placed by it, is a key. -/
theorem compile_dangling (h : source.WellFormed) (owner : Value) :
    (owner.writable = true → ((∃ name r reference, (source.compile owner).outcome =
        .error (.rejected (.unknownReference owner name r reference))) ↔
      ∃ e ∈ source, ∃ r s, e.2.Lists r s ∧ ¬ source.HasKey s)) ∧
    (owner.writable = false → ((source.compile owner).outcome = .error .illFormed ↔
      ∃ e ∈ source, ∃ r s, e.2.Lists r s ∧ ¬ source.HasKey s)) ∧
    (∀ name r reference, (source.compile owner).outcome =
        .error (.rejected (.unknownReference owner name r reference)) →
      source.FirstUnknown name r reference ∧ (source.compile owner).events =
        [.logged ⟨.closure, .error, danglingText owner name r reference, none⟩]) ∧
    ((∀ e ∈ source, ∀ r s, e.2.Lists r s → source.HasKey s) → ∃ g, source.graph = .ok g ∧
      (source.compile owner).outcome =
        .ok (source.capabilities (g.merges.foldl Graph.merge g)) ∧
      ∀ before m after, g.merges = before ++ m :: after →
        (before.foldl Graph.merge g).names.contains m.target = true ∧
        m.Within (fun v => v.IsName ∧ source.HasKey v.word) ∧
        (before.foldl Graph.merge g).Within fun v => v.IsName ∧ source.HasKey v.word) := by
  obtain ⟨g, hgraph, hg⟩ := graph_represents h
  have hclosed : (∀ e ∈ source, ∀ r s, e.2.Lists r s → source.HasKey s) →
      g.dangling? g.names = none :=
    ((dangling?_eq_none_iff_known h hg).trans (known_iff_hasKey h)).mpr
  -- without an unknown name nothing fails
  have hunknown : ∀ f, (source.compile owner).outcome = .error f →
      ∃ e ∈ source, ∃ r s, e.2.Lists r s ∧ ¬ source.HasKey s := by
    intro f hf
    by_contra hall
    push Not at hall
    rw [compile_of_closed hgraph hg.within (hclosed hall)] at hf
    cases hf
  refine ⟨fun howner => ⟨fun ⟨_, _, _, hf⟩ => hunknown _ hf, fun hlisted => ?_⟩,
    fun howner => ⟨hunknown _, fun hlisted => ?_⟩, ?_, ?_⟩
  · obtain ⟨name, r, reference, hf⟩ := compile_of_unknown h owner hlisted
    exact ⟨name, r, reference, hf.trans (if_pos howner)⟩
  · obtain ⟨name, r, reference, hf⟩ := compile_of_unknown h owner hlisted
    exact hf.trans (if_neg (by simp [howner]))
  · intro name r reference hrejected
    have hfound := ((compile_rejects_iff hgraph hg).mp hrejected).2
    refine ⟨firstUnknown_of_dangling? h hgraph hg hfound, ?_⟩
    rw [compile_of_dangling hgraph hg.within hfound]
  · intro hall
    refine ⟨g, hgraph, ?_, fun before m after hmerges => keys_of_merges hg (hclosed hall) hmerges⟩
    rw [compile_of_closed hgraph hg.within (hclosed hall), Graph.close_eq_foldl]

/-- Two credentials, of which the second one lists two names that are no keys. -/
def ghostGrants : Declared :=
  [(.text "view", .ofNames "view" none none [] ["edit"] [] []),
    (.text "edit", .ofNames "edit" none none [] [] ["ghost", "view", "draft"] [])]

theorem wellFormed_ghostGrants : ghostGrants.WellFormed where
  keys := by simp [ghostGrants]
  distinct := by decide
  names := by
    intro e he r
    simp only [ghostGrants, List.mem_cons, List.not_mem_nil, or_false] at he
    rcases he with rfl | rfl <;> cases r <;> refine ⟨_, rfl, ?_⟩ <;> simp

/-- Of the two names the one that comes first in the order of texts is unknown first. -/
theorem eq_of_firstUnknown_ghostGrants {name reference : Value} {r : Relation}
    (h : ghostGrants.FirstUnknown name r reference) :
    name = .text "edit" ∧ r = .subrights ∧ reference = .text "draft" := by
  obtain ⟨before, e, after, heq, -, rfl, earlier, s, later, -, -, rfl, hleast⟩ := h
  have he : e ∈ ghostGrants := by
    rw [heq]
    exact List.mem_append_right before List.mem_cons_self
  obtain ⟨⟨items, hitems, hmem⟩, hunknown, hsmaller⟩ := hleast
  simp only [ghostGrants, List.mem_cons, List.not_mem_nil, or_false] at he
  rcases he with rfl | rfl
  · -- what `view` lists is a key
    cases s <;> cases hitems <;> simp at hmem
    subst hmem
    exact absurd (by decide) hunknown
  · cases s <;> cases hitems <;> simp at hmem
    rcases hmem with rfl | rfl | rfl
    · have hdraft : (Credential.ofNames "edit" none none [] [] ["ghost", "view", "draft"] []).Lists
          .subrights "draft" := ⟨_, rfl, .text "draft", by simp, rfl⟩
      exact absurd (hsmaller "draft" hdraft (by decide)) (by decide)
    · exact absurd (by decide) hunknown
    · exact ⟨rfl, rfl, rfl⟩

/-- Of the children of `edit` the one that comes first in the order of texts is reported, not the
one that is listed first. -/
theorem compile_ghostGrants : ghostGrants.WellFormed ∧
    (ghostGrants.compile (.text "Thing")).outcome = .error
      (.rejected (.unknownReference (.text "Thing") (.text "edit") .subrights
        (.text "draft"))) := by
  obtain ⟨hiff, -, hfirst, -⟩ := compile_dangling wellFormed_ghostGrants (.text "Thing")
  obtain ⟨name, r, reference, hrejected⟩ := (hiff rfl).mpr ⟨_, .tail _ (.head _), .subrights,
    "ghost", ⟨_, rfl, .text "ghost", .head _, rfl⟩, by decide⟩
  obtain ⟨rfl, rfl, rfl⟩ := eq_of_firstUnknown_ghostGrants (hfirst _ _ _ hrejected).1
  exact ⟨wellFormed_ghostGrants, hrejected⟩

end Clearance.Declared
