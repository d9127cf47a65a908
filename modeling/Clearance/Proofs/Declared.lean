import Clearance.Proofs.Run
import Clearance.Proofs.Value.Names

/-! Compiling declared credentials.

What declared credentials say is a listing of texts (`Declared.Lists`). A mapping
from names to credentials compiles exactly when nothing that it lists is missing
from its keys, and then every relation of the result holds the names that a path of
the listing joins (`compile_outcome`). -/
namespace Clearance

/-! ## What a credential lists -/

namespace Credential

/-- A text stands among the members of a relation. -/
def Lists (c : Credential) (r : Relation) (s : String) : Prop :=
  ∃ items, (c.relation r).members? = some items ∧ ∃ v ∈ items, v.text? = some s

/-- Every relation can be walked through, and its members are names. -/
def ListsNames (c : Credential) : Prop :=
  ∀ r, ∃ items, (c.relation r).members? = some items ∧ ∀ v ∈ items, v.IsName

/-- Every member of every relation is of one kind. -/
def Within (S : Value → Prop) (c : Credential) : Prop :=
  ∀ r items, (c.relation r).members? = some items → ∀ v ∈ items, S v

theorem lists_iff {c : Credential} {r : Relation} {items : List Value}
    (hitems : (c.relation r).members? = some items) (hnames : ∀ v ∈ items, v.IsName)
    {s : String} : c.Lists r s ↔ s ∈ items.map Value.word := by
  rw [Value.mem_map_word hnames, Lists, hitems]
  simp

/-- A relation that lists names can be sorted. -/
theorem sortedRelation_of_listsNames {c : Credential} (h : c.ListsNames) (r : Relation) :
    ∃ names, c.sortedRelation r = .ok names ∧ (∀ v ∈ names, v.IsName) ∧
      Ascending.Strict (names.map Value.word) ∧
      ∀ s, s ∈ names.map Value.word ↔ c.Lists r s := by
  obtain ⟨items, hitems, hnames⟩ := h r
  have hdistinct : (c.relation r).distinctMembers? = some (Value.distinct items) := by
    simp [Value.distinctMembers?, hitems, Value.allHashable_of_names hnames]
  obtain ⟨sorted, hsort, hperm, hwords⟩ :=
    Value.sort?_of_names (Value.isName_of_mem_distinct hnames)
  refine ⟨sorted, ?_, ?_, ?_, ?_⟩
  · simp [sortedRelation, hdistinct, hsort, orMismatch, bind, Except.bind]
  · exact fun v hv => Value.isName_of_mem_distinct hnames v (hperm.mem_iff.mp hv)
  · rw [hwords]
    exact Value.strict_sortedWords (Value.nodup_map_word_distinct hnames)
  · intro s
    rw [(hperm.map Value.word).mem_iff, Value.mem_map_word_distinct hnames, lists_iff hitems hnames]

/-- A relation that is ascending already stays as it is. -/
theorem sortedRelation_of_strict {c : Credential} {r : Relation} {items : List Value}
    (hitems : (c.relation r).members? = some items) (hnames : ∀ v ∈ items, v.IsName)
    (hstrict : Ascending.Strict (items.map Value.word)) : c.sortedRelation r = .ok items := by
  have hdistinct : (c.relation r).distinctMembers? = some items := by
    simp [Value.distinctMembers?, hitems, Value.allHashable_of_names hnames,
      Value.distinct_of_nodup_word hnames hstrict.nodup]
  simp [sortedRelation, hdistinct, Value.sort?_of_strict hnames hstrict, orMismatch, bind,
    Except.bind]

/-- All four relations of a credential that lists names can be sorted. -/
theorem sortedLinks_of_listsNames {c : Credential} (h : c.ListsNames) :
    ∃ links, c.sortedLinks = .ok links ∧ ∀ r, (∀ v ∈ links.get r, v.IsName) ∧
      Ascending.Strict ((links.get r).map Value.word) ∧
      ∀ s, s ∈ (links.get r).map Value.word ↔ c.Lists r s := by
  obtain ⟨implies, h1, p1⟩ := sortedRelation_of_listsNames h .implies
  obtain ⟨impliedBy, h2, p2⟩ := sortedRelation_of_listsNames h .impliedBy
  obtain ⟨subrights, h3, p3⟩ := sortedRelation_of_listsNames h .subrights
  obtain ⟨subrightOf, h4, p4⟩ := sortedRelation_of_listsNames h .subrightOf
  refine ⟨⟨implies, impliedBy, subrights, subrightOf⟩, ?_, ?_⟩
  · simp [sortedLinks, h1, h2, h3, h4, bind, Except.bind, pure, Except.pure]
  · intro r
    cases r with
    | implies => exact p1
    | impliedBy => exact p2
    | subrights => exact p3
    | subrightOf => exact p4

/-- Sorting a relation adds no member. -/
theorem mem_of_sortedRelation {c : Credential} {r : Relation} {names : List Value}
    (hok : c.sortedRelation r = .ok names) :
    ∃ items, (c.relation r).members? = some items ∧ ∀ v ∈ names, v ∈ items := by
  unfold sortedRelation at hok
  obtain ⟨members, hmembers, hok⟩ := bind_eq_ok_iff.mp hok
  rw [orMismatch_eq_ok_iff] at hmembers hok
  unfold Value.distinctMembers? at hmembers
  split at hmembers
  · rename_i items hitems
    obtain ⟨-, hdistinct⟩ := Option.ite_none_right_eq_some.mp hmembers
    obtain ⟨-, hsorted⟩ := Option.ite_none_right_eq_some.mp hok
    cases hdistinct
    cases hsorted
    refine ⟨items, hitems, fun v hv => ?_⟩
    rw [List.mem_mergeSort] at hv
    exact (Value.distinctFrom_sublist [] items).subset hv
  · cases hmembers

/-- The four relations are sorted one by one. -/
theorem sortedRelation_of_sortedLinks {c : Credential} {links : Links Value}
    (hok : c.sortedLinks = .ok links) (r : Relation) : c.sortedRelation r = .ok (links.get r) := by
  unfold sortedLinks at hok
  obtain ⟨implies, h1, hok⟩ := bind_eq_ok_iff.mp hok
  obtain ⟨impliedBy, h2, hok⟩ := bind_eq_ok_iff.mp hok
  obtain ⟨subrights, h3, hok⟩ := bind_eq_ok_iff.mp hok
  obtain ⟨subrightOf, h4, hok⟩ := bind_eq_ok_iff.mp hok
  cases hok
  cases r with
  | implies => exact h1
  | impliedBy => exact h2
  | subrights => exact h3
  | subrightOf => exact h4

theorem within_sortedLinks {S : Value → Prop} {c : Credential} (h : c.Within S)
    {links : Links Value} (hok : c.sortedLinks = .ok links) : ∀ r, ∀ v ∈ links.get r, S v := by
  intro r v hv
  obtain ⟨items, hitems, hmem⟩ := mem_of_sortedRelation (sortedRelation_of_sortedLinks hok r)
  exact h r items hitems v (hmem v hv)

end Credential

/-! ## Dangling references -/

namespace Graph

variable {α : Type} [BEq α] {declared : List α} {g : Graph α}

/-- No relation of a name lists anything that is not declared. -/
theorem findSome?_unknown_eq_none_iff {links : Links α} :
    (Relation.all.findSome? fun r =>
      ((links.get r).find? fun x => !declared.contains x).map fun x => (r, x)) = none ↔
      ∀ r, ∀ x ∈ links.get r, declared.contains x = true := by
  simp [List.findSome?_eq_none_iff, Relation.mem_all]

/-- No reference dangles exactly when every listed name is declared. -/
theorem dangling?_eq_none_iff : g.dangling? declared = none ↔
    ∀ e ∈ g, ∀ r, ∀ x ∈ e.2.get r, declared.contains x = true := by
  induction g with
  | nil => simp [dangling?]
  | cons e rest ih =>
    obtain ⟨name, links⟩ := e
    rw [List.forall_mem_cons, ← ih, ← findSome?_unknown_eq_none_iff]
    simp only [dangling?]
    split
    · rename_i hfound
      simp [hfound]
    · rename_i hfound
      simp [hfound]

/-- What dangles first: all names before it list what is declared, and so do the relations of
its own name before it and the references in its own relation before it. -/
theorem stopsIn_of_dangling? {name x : α} {r : Relation}
    (h : g.dangling? declared = some (name, r, x)) :
    StopsIn (fun e => ∀ s, ∀ y ∈ e.2.get s, declared.contains y = true)
      (fun e => e.1 = name ∧ StopsIn (fun s => ∀ y ∈ e.2.get s, declared.contains y = true)
        (fun s => s = r ∧ StopsIn (declared.contains · = true)
          (fun y => y = x ∧ ¬ declared.contains y = true) (e.2.get s)) Relation.all) g := by
  induction g with
  | nil => cases h
  | cons e rest ih =>
    obtain ⟨own, links⟩ := e
    rw [stopsIn_cons]
    simp only [dangling?] at h
    split at h
    · rename_i r' x' hfound
      cases h
      obtain ⟨earlier, s, later, hall, hs, hnone⟩ := List.findSome?_eq_some_iff.mp hfound
      obtain ⟨y, hfind, heq⟩ := Option.map_eq_some_iff.mp hs
      cases heq
      obtain ⟨hy, before, after, hlist, hbefore⟩ := List.find?_eq_some_iff_append.mp hfind
      refine .inl ⟨rfl, earlier, _, later, hall, ?_, rfl, before, _, after, hlist, ?_, rfl, ?_⟩
      · intro s' hs' z hz
        have hdeclared := List.find?_eq_none.mp (Option.map_eq_none_iff.mp (hnone s' hs')) z hz
        simpa using hdeclared
      · intro z hz
        simpa using hbefore z hz
      · simpa using hy
    · rename_i hfound
      exact .inr ⟨findSome?_unknown_eq_none_iff.mp hfound, ih h⟩

/-- What is true of all names and references is true of those that are reported. -/
theorem Within.of_dangling? {S : α → Prop} (hg : g.Within S) {name x : α} {r : Relation}
    (h : g.dangling? declared = some (name, r, x)) : S name ∧ S x := by
  obtain ⟨before, e, after, heq, -, rfl, -, s, -, -, -, rfl, _, y, _, hlist, -, rfl, -⟩ :=
    stopsIn_of_dangling? h
  have he := hg e (heq ▸ List.mem_append_right before List.mem_cons_self)
  exact ⟨he.1, he.2 _ _ (hlist ▸ List.mem_append_right _ List.mem_cons_self)⟩

end Graph

/-! ## Mappings from names to credentials -/

namespace Declared

/-- What declared credentials say: the key of a credential lists what the credential lists. -/
def Lists (source : Declared) : Listing String :=
  fun r a b => ∃ e ∈ source, e.1.text? = some a ∧ e.2.Lists r b

/-- A mapping from names to credentials whose relations list names. -/
structure WellFormed (source : Declared) : Prop where
  keys : ∀ e ∈ source, e.1.IsName
  distinct : (source.map fun e => e.1.word).Nodup
  names : ∀ e ∈ source, e.2.ListsNames

/-- Everything that is listed is declared. -/
def Known (source : Declared) : Prop :=
  ∀ r a b, source.Lists r a b → b ∈ source.map fun e => e.1.word

variable {source : Declared}

theorem lists_of_mem (h : source.WellFormed) {e : Value × Credential} (he : e ∈ source)
    {r : Relation} {b : String} : source.Lists r e.1.word b ↔ e.2.Lists r b := by
  constructor
  · rintro ⟨e', he', htext, hlist⟩
    have heq : e' = e := by
      refine List.inj_on_of_nodup_map h.distinct he' he ?_
      exact (Value.text?_eq_some_iff.mp htext).2
    exact heq ▸ hlist
  · intro hlist
    exact ⟨e, he, (h.keys e he).text?, hlist⟩

/-- The graph of a mapping: its keys in order, and what they list in ascending order. -/
structure Represents (g : Graph Value) (source : Declared) : Prop where
  names : g.names = source.map Prod.fst
  within : g.Within Value.IsName
  strict : ∀ r a, Ascending.Strict (((g.rename Value.word).linksOf a).get r)
  lists : ∀ r a b, (g.rename Value.word).Lists r a b ↔ source.Lists r a b

theorem names_rename_of_represents {g : Graph Value} (hg : Represents g source) :
    (g.rename Value.word).names = source.map fun e => e.1.word := by
  rw [Graph.names_rename, hg.names, List.map_map]
  rfl

theorem graph_represents (h : source.WellFormed) :
    ∃ g, source.graph = .ok g ∧ Represents g source := by
  induction source with
  | nil =>
    refine ⟨[], rfl, rfl, by simp [Graph.Within], ?_, ?_⟩
    · intro r a
      cases r <;> exact Ascending.strict_nil
    · intro r a b
      cases r <;> simp [Graph.Lists, Graph.rename, Graph.linksOf, Links.none, Links.get, Lists]
  | cons e rest ih =>
    obtain ⟨key, c⟩ := e
    have hdistinct := h.distinct
    rw [List.map_cons, List.nodup_cons] at hdistinct
    have hrest : WellFormed rest :=
      ⟨fun e he => h.keys e (List.mem_cons_of_mem _ he), hdistinct.2,
        fun e he => h.names e (List.mem_cons_of_mem _ he)⟩
    obtain ⟨g, hgraph, hg⟩ := ih hrest
    obtain ⟨links, hlinks, hget⟩ :=
      Credential.sortedLinks_of_listsNames (h.names (key, c) List.mem_cons_self)
    have hkey : key.IsName := h.keys (key, c) List.mem_cons_self
    -- the head lists what its credential lists, every other name what it lists in the rest
    refine ⟨(key, links) :: g, ?_, ?_, ?_, ?_, ?_⟩
    · rw [graph, mapM_eq_ok_iff] at hgraph ⊢
      refine List.Forall₂.cons ?_ hgraph
      simp [hlinks, bind, Except.bind, pure, Except.pure]
    · rw [Graph.names_cons, hg.names, List.map_cons]
    · exact List.forall_mem_cons.mpr ⟨⟨hkey, fun r => (hget r).1⟩, hg.within⟩
    · intro r a
      rw [Graph.rename, List.map_cons]
      by_cases ha : a = key.word
      · subst ha
        rw [Graph.linksOf_cons_self, Links.get_map]
        exact (hget r).2.1
      · rw [Graph.linksOf_cons_of_ne ha]
        exact hg.strict r a
    · intro r a b
      rw [Graph.Lists, Graph.rename, List.map_cons]
      by_cases ha : a = key.word
      · subst ha
        rw [Graph.linksOf_cons_self, Links.get_map, (hget r).2.2 b]
        exact (lists_of_mem h List.mem_cons_self).symm
      · rw [Graph.linksOf_cons_of_ne ha]
        refine (hg.lists r a b).trans ?_
        simp only [Lists, List.mem_cons, exists_eq_or_imp, Value.text?_eq_some_iff]
        simp [Ne.symm ha]

/-- The texts of a graph that represents a mapping form a graph that can be closed. -/
theorem wellFormed_of_represents (h : source.WellFormed) {g : Graph Value}
    (hg : Represents g source) (hknown : source.Known) :
    (g.rename Value.word).WellFormed where
  nodup := names_rename_of_represents hg ▸ h.distinct
  strict := hg.strict
  known r a b hlist := by
    rw [names_rename_of_represents hg]
    exact hknown r a b ((hg.lists r a b).mp hlist)

/-- The listed names of a graph are those of its texts. -/
theorem lists_rename {g : Graph Value} (hg : g.Within Value.IsName) {v : Value}
    (hv : v.IsName) {r : Relation} {s : String} :
    (g.rename Value.word).Lists r v.word s ↔ s ∈ ((g.linksOf v).get r).map Value.word := by
  rw [Graph.Lists, Graph.linksOf_rename Value.faithful_word hg hv, Links.get_map]

/-- A name is among those of the graph exactly when its text is a key. -/
theorem contains_names_iff {g : Graph Value} (hg : Represents g source) {v : Value}
    (hv : v.IsName) :
    g.names.contains v = true ↔ v.word ∈ source.map fun e => e.1.word := by
  rw [← names_rename_of_represents hg, Graph.names_rename,
    Value.mem_map_word (fun _ => hg.within.name), List.contains_eq_any_beq]
  simp only [List.any_eq_true, Value.beq_eq_same, Value.same_iff_of_isName hv]

theorem dangling?_eq_none_iff_known (h : source.WellFormed) {g : Graph Value}
    (hg : Represents g source) : g.dangling? g.names = none ↔ source.Known := by
  have hnodup : (g.rename Value.word).names.Nodup := names_rename_of_represents hg ▸ h.distinct
  rw [Graph.dangling?_eq_none_iff]
  constructor
  · intro hall r a b hlist
    obtain ⟨e', he', rfl, hb⟩ :=
      (Graph.lists_iff_exists_mem hnodup).mp ((hg.lists r a b).mpr hlist)
    obtain ⟨e, he, rfl⟩ := List.mem_map.mp he'
    rw [Links.get_map] at hb
    obtain ⟨x, hx, rfl⟩ := List.mem_map.mp hb
    exact (contains_names_iff hg ((hg.within e he).2 r x hx)).mp (hall e he r x hx)
  · intro hknown e he r x hx
    refine (contains_names_iff hg ((hg.within e he).2 r x hx)).mpr (hknown r e.1.word x.word ?_)
    refine (hg.lists r _ _).mp ((Graph.lists_iff_exists_mem hnodup).mpr ?_)
    refine ⟨_, List.mem_map_of_mem he, rfl, ?_⟩
    rw [Links.get_map]
    exact List.mem_map_of_mem hx

/-! ## Compiled credentials -/

/-- What compiling arrives at: the credentials in their order with their texts, and
in every relation exactly the names that a path joins, in ascending order. -/
structure Closes (source : Declared) (compiled : List Capability) : Prop where
  labelled : (compiled.map fun c => (c.name, c.label, c.description)) =
    source.map fun e => (e.1, e.2.label, e.2.description)
  names : ∀ c ∈ compiled, ∀ r, ∀ v ∈ c.links.get r, v.IsName
  strict : ∀ c ∈ compiled, ∀ r, Ascending.Strict ((c.links.get r).map Value.word)
  lists : ∀ c ∈ compiled, ∀ r s,
    s ∈ (c.links.get r).map Value.word ↔ source.Lists.Path r c.name.word s

theorem sortable_of_within {g : Graph Value} (h : g.Within Value.IsName) :
    sortable g = .ok () := by
  have hall : g.allLists Value.comparable = true := by
    simp only [Graph.allLists, List.all_eq_true]
    intro e he r _
    exact Value.comparable_of_names ((h e he).2 r)
  simp [sortable, hall]

theorem closes_capabilities (h : source.WellFormed) (hknown : source.Known) {g : Graph Value}
    (hg : Represents g source) : Closes source (source.capabilities g.close.1) := by
  -- what closing does is known of texts; it commutes with reading names as their texts
  obtain ⟨hwithin, hclose⟩ := Graph.rename_close Value.faithful_word hg.within
  have hwf := wellFormed_of_represents h hg hknown
  have hstage := (Graph.stage_close hwf).1
  rw [hclose] at hstage
  refine ⟨by simp [capabilities], ?_, ?_, ?_⟩
  · simp only [capabilities, List.forall_mem_map]
    intro e _ r
    exact hwithin.links e.1 r
  · simp only [capabilities, List.forall_mem_map]
    intro e he r
    have hstrict := hstage.wellFormed.strict r e.1.word
    rwa [Graph.linksOf_rename Value.faithful_word hwithin (h.keys e he), Links.get_map] at hstrict
  · simp only [capabilities, List.forall_mem_map]
    intro e he r s
    have hlists := Graph.lists_close hwf (r := r) (a := e.1.word) (b := s)
    rw [hclose] at hlists
    rw [← lists_rename hwithin (h.keys e he), hlists]
    exact Listing.path_congr hg.lists

/-- A reference that dangles is logged and refused, and nothing else happens. -/
theorem compile_of_dangling {g : Graph Value} {owner name reference : Value} {r : Relation}
    (hok : source.graph = .ok g) (hg : g.Within Value.IsName)
    (hfound : g.dangling? g.names = some (name, r, reference)) :
    source.compile owner =
      ⟨[.logged ⟨.closure, .error, danglingText owner name r reference, none⟩],
        refuse (.unknownReference owner name r reference)⟩ := by
  obtain ⟨hname, hreference⟩ := hg.of_dangling? hfound
  have hwritten : asWritten [name, reference] = .ok () :=
    asWritten_of_writable (by simp [hname.writable, hreference.writable])
  simp only [compile, hok, Run.bind_eq, Run.ofExcept_ok, Run.answer_andThen, hfound, hwritten]
  rfl

/-- Names can be written out, so that refusing one fails over its owner alone. -/
theorem written_of_dangling {g : Graph Value} {owner name reference : Value} {r : Relation}
    (hg : g.Within Value.IsName) (hfound : g.dangling? g.names = some (name, r, reference)) :
    (∃ v ∈ (Rejection.unknownReference owner name r reference).written, v.writable = false) ↔
      owner.writable = false := by
  obtain ⟨hname, hreference⟩ := hg.of_dangling? hfound
  simp [Rejection.written, hname.writable, hreference.writable]

/-- Without a dangling reference the relations are closed, and the number of passes is logged. -/
theorem compile_of_closed {g : Graph Value} {owner : Value} (hok : source.graph = .ok g)
    (hg : g.Within Value.IsName) (hnone : g.dangling? g.names = none) :
    source.compile owner =
      ⟨[.logged ⟨.closure, .debug, compiledText owner source.length g.close.2, none⟩],
        .ok (source.capabilities g.close.1)⟩ := by
  have hwithin := (Graph.rename_close Value.faithful_word hg).1
  simp only [compile, hok, Run.bind_eq, Run.ofExcept_ok, Run.answer_andThen, hnone,
    sortable_of_within hwithin]
  rfl

/-- When everything that is listed is declared, compiling closes the graph of a mapping. -/
theorem compile_of_known (h : source.WellFormed) (hknown : source.Known) (owner : Value) :
    ∃ g, source.graph = .ok g ∧ Represents g source ∧ source.compile owner =
      ⟨[.logged ⟨.closure, .debug, compiledText owner source.length g.close.2, none⟩],
        .ok (source.capabilities g.close.1)⟩ := by
  obtain ⟨g, hgraph, hg⟩ := graph_represents h
  have hnone := (dangling?_eq_none_iff_known h hg).mpr hknown
  exact ⟨g, hgraph, hg, compile_of_closed hgraph hg.within hnone⟩

/-- **When compiling succeeds.** A mapping compiles exactly when everything that it lists is
declared, and then to its closed form. It is refused otherwise, and the refusal sticks over an
owner that cannot be written out. -/
theorem compile_outcome (h : source.WellFormed) (owner : Value) :
    RejectsUnless .unknownReference source.Known (source.compile owner).outcome
        (Sticks (¬ source.Known ∧ owner.writable = false)) ∧
      (source.Known → ∃ compiled, (source.compile owner).outcome = .ok compiled ∧
        Closes source compiled) := by
  by_cases hknown : source.Known
  · obtain ⟨g, -, hg, hcompile⟩ := compile_of_known h hknown owner
    rw [hcompile]
    refine ⟨(rejectsUnless_ok hknown).congr Iff.rfl fun f => ?_, fun _ =>
      ⟨source.capabilities g.close.1, rfl, closes_capabilities h hknown hg⟩⟩
    exact iff_of_false id fun hn => hn.2.1 hknown
  · obtain ⟨g, hgraph, hg⟩ := graph_represents h
    obtain ⟨⟨name, r, reference⟩, hfound⟩ :=
      Option.ne_none_iff_exists'.mp (mt (dangling?_eq_none_iff_known h hg).mp hknown)
    rw [compile_of_dangling hgraph hg.within hfound]
    refine ⟨rejectsUnless_refuse hknown rfl ?_, fun hk => absurd hk hknown⟩
    rw [written_of_dangling hg.within hfound, and_iff_right hknown]

/-- What compiles is closed, and lists what is declared. -/
theorem closes_of_compile (h : source.WellFormed) {owner : Value} {compiled : List Capability}
    (hok : (source.compile owner).outcome = .ok compiled) :
    source.Known ∧ Closes source compiled := by
  obtain ⟨hdecided, hcloses⟩ := compile_outcome h owner
  have hknown := hdecided.of_ok hok
  obtain ⟨compiled', hok', hc⟩ := hcloses hknown
  cases hok.symm.trans hok'
  exact ⟨hknown, hc⟩

/-! ## Names of one kind -/

theorem within_graph {S : Value → Prop} (h : ∀ e ∈ source, S e.1 ∧ e.2.Within S)
    {g : Graph Value} (hok : source.graph = .ok g) : g.Within S := by
  rw [graph, mapM_eq_ok_iff] at hok
  induction hok with
  | nil => simp [Graph.Within]
  | cons hhead _ ih =>
    rw [List.forall_mem_cons] at h
    obtain ⟨links, hlinks, heq⟩ := bind_eq_ok_iff.mp hhead
    cases heq
    exact List.forall_mem_cons.mpr
      ⟨⟨h.1.1, Credential.within_sortedLinks h.1.2 hlinks⟩, ih h.2⟩

/-- Compiling makes up no names: what is true of all declared and listed names stays true. -/
theorem within_compile {S : Value → Prop} (hnames : ∀ v, S v → v.IsName)
    (h : ∀ e ∈ source, S e.1 ∧ e.2.Within S) {owner : Value} {compiled : List Capability}
    (hok : (source.compile owner).outcome = .ok compiled) :
    ∀ c ∈ compiled, S c.name ∧ ∀ r, ∀ v ∈ c.links.get r, S v := by
  have hf : Faithful Value.word S :=
    ⟨fun ha hb => Value.faithful_word.compare (hnames _ ha) (hnames _ hb),
      fun ha hb => Value.faithful_word.beq (hnames _ ha) (hnames _ hb)⟩
  unfold compile at hok
  obtain ⟨g, hgraph, hok⟩ := Run.andThen_outcome_ok.mp hok
  simp only at hok
  split at hok
  · obtain ⟨_, -, hok⟩ := Run.andThen_outcome_ok.mp hok
    obtain ⟨_, -, hreject⟩ := Run.andThen_outcome_ok.mp hok
    exact absurd hreject refuse_ne_ok
  · obtain ⟨_, -, hok⟩ := Run.andThen_outcome_ok.mp hok
    obtain ⟨_, -, hok⟩ := Run.andThen_outcome_ok.mp hok
    cases hok
    have hclosed := (Graph.rename_close hf (within_graph h hgraph)).1
    simp only [capabilities, List.forall_mem_map]
    intro e he
    exact ⟨(h e he).1, hclosed.links e.1⟩

end Declared

end Clearance
