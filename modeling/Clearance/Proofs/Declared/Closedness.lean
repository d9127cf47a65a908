import Clearance.Proofs.Compiled
import Clearance.Proofs.Graph.Doubling
import Clearance.Proofs.Graph.Growing

/-! One pass tells whether compiling changes anything.

Asking whether a mapping is closed makes a single pass, while compiling makes passes until one
changes nothing. The two agree (`isClosed_iff_compile`): the first pass changes nothing exactly
when what is listed is closed under paths, and that is what compiling arrives at. So compiled
credentials are closed, and compile to themselves. -/
namespace Clearance

theorem Capability.relation_toCredential (c : Capability) (r : Relation) :
    c.toCredential.relation r = .tuple (c.links.get r) := by
  cases r <;> rfl

namespace Declared

/-- Compiled credentials by their names, as they can be declared once more. -/
def ofCompiled (compiled : List Capability) : Declared :=
  compiled.map fun c => (c.name, c.toCredential)

/-- Compiled credentials list what the declared ones do, relation by relation. -/
def SameNames (source : Declared) (compiled : List Capability) : Prop :=
  List.Forall₂ (fun e c => c.name = e.1 ∧
    ∀ r s, s ∈ (c.links.get r).map Value.word ↔ e.2.Lists r s) source compiled

variable {source : Declared} {compiled : List Capability}

/-! ## What one pass tells -/

theorem pass_beq_iff_closed (h : source.WellFormed) (hknown : source.Known) {g : Graph Value}
    (hg : Represents g source) : (g.pass == g) = true ↔ source.Lists.Closed := by
  obtain ⟨hpass, heq⟩ := Graph.rename_pass Value.faithful_word hg.within
  have hwf := wellFormed_of_represents h hg hknown
  rw [← Graph.beq_rename Value.faithful_word hpass hg.within, heq, beq_iff_eq,
    Graph.pass_eq_iff_closed hwf]
  exact Listing.closed_congr hg.lists

/-- A mapping counts as closed exactly when it lists keys alone, and is closed under paths. -/
theorem isClosed_outcome (h : source.WellFormed) :
    ∃ b, source.isClosed = .ok b ∧ (b = true ↔ source.Known ∧ source.Lists.Closed) := by
  obtain ⟨g, hgraph, hg⟩ := graph_represents h
  have hdangling := dangling?_eq_none_iff_known h hg
  cases hfound : g.dangling? g.names with
  | some found =>
    refine ⟨false, by simp [isClosed, hgraph, hfound, bind, Except.bind, pure, Except.pure], ?_⟩
    simp [← hdangling, hfound]
  | none =>
    have hknown := hdangling.mp hfound
    have hwithin := (Graph.rename_pass Value.faithful_word hg.within).1
    refine ⟨g.pass == g, ?_, ?_⟩
    · simp [isClosed, hgraph, hfound, sortable_of_within hwithin, bind, Except.bind, pure,
        Except.pure]
    · rw [pass_beq_iff_closed h hknown hg]
      exact (and_iff_right hknown).symm

/-! ## What compiling leaves as it is -/

namespace Closes

/-- Compiled credentials stand in the places of the declared ones. -/
theorem places (hc : Closes source compiled) :
    List.Forall₂ (fun e c => e ∈ source ∧ c ∈ compiled ∧ c.name = e.1) source compiled := by
  have hnames : List.Forall₂ Eq (compiled.map Capability.name) (source.map Prod.fst) := by
    rw [List.forall₂_eq_eq_eq]
    exact hc.map_name
  rw [List.forall₂_map_left_iff, List.forall₂_map_right_iff] at hnames
  exact (List.forall₂_and_left source compiled).mpr
    ⟨fun _ he => he, ((List.forall₂_and_left compiled source).mpr ⟨fun _ hc => hc, hnames⟩).flip⟩

/-- Compiling leaves every relation as it is exactly when the mapping is closed under paths. -/
theorem sameNames_iff (hc : Closes source compiled) (h : source.WellFormed)
    (hknown : source.Known) : SameNames source compiled ↔ source.Lists.Closed := by
  constructor
  · intro hsame
    refine Listing.closed_of_iff_path (L := source.Lists) fun r a b => ?_
    refine ⟨Listing.path_of_lists, fun hp => ?_⟩
    -- a path leaves from a key, and what is compiled for that key lists where it leads
    obtain ⟨e, he, rfl⟩ := List.mem_map.mp (key_of_path hknown hp)
    obtain ⟨c, hmem, hname, hlists⟩ := exists_of_mem_forall₂ hsame he
    rw [lists_of_mem h he, ← hlists, hc.lists c hmem, hname]
    exact hp
  · intro hclosed
    refine hc.places.imp fun e c hplace => ?_
    obtain ⟨he, hmem, hname⟩ := hplace
    refine ⟨hname, fun r s => ?_⟩
    rw [hc.lists c hmem, hname, ← lists_of_mem h he]
    exact ⟨hclosed.lists_of_path, Listing.path_of_lists⟩

end Closes

/-! ## Compiling what was compiled -/

section Compiled

variable (h : source.WellFormed) (hc : Closes source compiled)

include h hc

theorem wellFormed_ofCompiled : (ofCompiled compiled).WellFormed where
  keys := by
    simp only [ofCompiled, List.forall_mem_map]
    exact fun c hmem => hc.isName h hmem
  distinct := by
    have hwords : (ofCompiled compiled).map (fun e => e.1.word) =
        source.map fun e => e.1.word := by
      rw [← hc.map_word, ofCompiled, List.map_map]
      rfl
    rw [hwords]
    exact h.distinct
  names := by
    simp only [ofCompiled, List.forall_mem_map]
    intro c hmem r
    exact ⟨c.links.get r, by rw [c.relation_toCredential]; rfl, hc.names c hmem r⟩

/-- Compiled credentials list the paths of the declared ones. -/
theorem lists_ofCompiled (hknown : source.Known) (r : Relation) (a b : String) :
    (ofCompiled compiled).Lists r a b ↔ source.Lists.Path r a b := by
  have hlists : ∀ c ∈ compiled, c.toCredential.Lists r b ↔
      source.Lists.Path r c.name.word b := by
    intro c hmem
    have hitems : (c.toCredential.relation r).members? = some (c.links.get r) := by
      rw [c.relation_toCredential]
      rfl
    rw [Credential.lists_iff hitems (hc.names c hmem r)]
    exact hc.lists c hmem r b
  constructor
  · rintro ⟨e, he, htext, hlist⟩
    obtain ⟨c, hmem, rfl⟩ := List.mem_map.mp he
    rw [← (Value.text?_eq_some_iff.mp htext).2]
    exact (hlists c hmem).mp hlist
  · intro hp
    have hkey := Closes.key_of_path hknown hp
    rw [← hc.map_word] at hkey
    obtain ⟨c, hmem, rfl⟩ := List.mem_map.mp hkey
    exact ⟨_, List.mem_map_of_mem hmem, (hc.isName h hmem).text?, (hlists c hmem).mpr hp⟩

theorem known_ofCompiled (hknown : source.Known) : (ofCompiled compiled).Known := by
  intro r a b hlist
  have hkey := Closes.known_of_path hknown ((lists_ofCompiled h hc hknown r a b).mp hlist)
  rw [← hc.map_word] at hkey
  rwa [ofCompiled, List.map_map]

theorem closed_ofCompiled (hknown : source.Known) : (ofCompiled compiled).Lists.Closed :=
  Listing.closed_of_iff_path (lists_ofCompiled h hc hknown)

omit h in
/-- The relations of compiled credentials are sorted as they are. -/
theorem graph_ofCompiled :
    (ofCompiled compiled).graph = .ok (compiled.map fun c => (c.name, c.links)) := by
  have hlinks : ∀ c ∈ compiled, c.toCredential.sortedLinks = .ok c.links := by
    intro c hmem
    have hsorted : ∀ r, c.toCredential.sortedRelation r = .ok (c.links.get r) := by
      intro r
      refine Credential.sortedRelation_of_strict ?_ (hc.names c hmem r) (hc.strict c hmem r)
      rw [c.relation_toCredential]
      rfl
    simp only [Credential.sortedLinks, hsorted]
    rfl
  rw [graph, mapM_eq_ok_iff, ofCompiled, List.forall₂_map_left_iff, List.forall₂_map_right_iff,
    List.forall₂_same]
  intro c hmem
  simp only [hlinks c hmem]
  rfl

/-- Compiled credentials compile to themselves. -/
theorem compile_ofCompiled (hknown : source.Known) (owner : Value) :
    ((ofCompiled compiled).compile owner).outcome = .ok compiled := by
  have hwell := wellFormed_ofCompiled h hc
  have hknown' := known_ofCompiled h hc hknown
  obtain ⟨g, hgraph, hg, hcompile⟩ := compile_of_known hwell hknown' owner
  have hpass := (pass_beq_iff_closed hwell hknown' hg).mpr (closed_ofCompiled h hc hknown)
  rw [hcompile, Graph.close_of_pass_beq hpass]
  -- nothing was added to the graph, so that every name has the relations that it came with
  have hnodup := (wellFormed_of_represents hwell hg hknown').nodup
  obtain rfl : g = _ := Except.ok.inj (hgraph.symm.trans (graph_ofCompiled hc))
  have hlinks : ∀ c ∈ compiled, Graph.linksOf (compiled.map fun c => (c.name, c.links)) c.name =
      c.links := by
    intro c hmem
    exact Graph.linksOf_of_mem_faithful Value.faithful_word hg.within hnodup
      (List.mem_map_of_mem (f := fun c : Capability => (c.name, c.links)) hmem)
  refine congrArg Except.ok ?_
  rw [capabilities, ofCompiled, List.map_map]
  refine (List.map_congr_left fun c hmem => ?_).trans (List.map_id compiled)
  simp only [Function.comp_apply, hlinks c hmem]
  rfl

end Compiled

/-- **Asking and compiling agree.** A mapping from names to credentials counts as closed exactly
when it compiles and every relation keeps its names. What compiles compiles to something that
counts as closed, and that compiles to itself: names, labels, descriptions and the order in each
relation included. -/
theorem isClosed_iff_compile (h : source.WellFormed) (owner : Value) :
    (∃ b, source.isClosed = .ok b ∧ (b = true ↔
      ∃ compiled, (source.compile owner).outcome = .ok compiled ∧ SameNames source compiled)) ∧
    ∀ compiled, (source.compile owner).outcome = .ok compiled →
      (ofCompiled compiled).isClosed = .ok true ∧
      ∀ owner', ((ofCompiled compiled).compile owner').outcome = .ok compiled := by
  constructor
  · obtain ⟨b, hasked, hb⟩ := isClosed_outcome h
    refine ⟨b, hasked, hb.trans ⟨?_, ?_⟩⟩
    · rintro ⟨hknown, hclosed⟩
      obtain ⟨compiled, hok, hc⟩ := (compile_outcome h owner).2 hknown
      exact ⟨compiled, hok, (hc.sameNames_iff h hknown).mpr hclosed⟩
    · rintro ⟨compiled, hok, hsame⟩
      obtain ⟨hknown, hc⟩ := closes_of_compile h hok
      exact ⟨hknown, (hc.sameNames_iff h hknown).mp hsame⟩
  · intro compiled hok
    obtain ⟨hknown, hc⟩ := closes_of_compile h hok
    refine ⟨?_, fun owner' => compile_ofCompiled h hc hknown owner'⟩
    obtain ⟨b, hasked, hb⟩ := isClosed_outcome (wellFormed_ofCompiled h hc)
    obtain rfl : b = true :=
      hb.mpr ⟨known_ofCompiled h hc hknown, closed_ofCompiled h hc hknown⟩
    exact hasked

/-- Parents and children are declared from one side in `mutualGrants`. -/
theorem not_closed_mutualGrants : ¬ mutualGrants.Lists.Closed := by
  intro hclosed
  have hchild : mutualGrants.Lists .subrights "view" "edit" :=
    ⟨_, .tail _ (.head _), rfl, _, rfl, _, .head _, rfl⟩
  obtain ⟨e, he, hkey, items, hitems, v, hv, -⟩ := hclosed.subrightOf_iff.mpr hchild
  simp only [mutualGrants, List.mem_cons, List.not_mem_nil, or_false] at he
  rcases he with rfl | rfl | rfl
  · cases hitems
    cases hv
  · simp at hkey
  · simp at hkey

/-- So `mutualGrants` is not closed before it is compiled. -/
theorem isClosed_mutualGrants : mutualGrants.WellFormed ∧ mutualGrants.isClosed = .ok false ∧
    ∃ compiled, (mutualGrants.compile (.text "Thing")).outcome = .ok compiled ∧
      (ofCompiled compiled).isClosed = .ok true := by
  have hwell := complete_mutualGrants.wellFormed
  obtain ⟨⟨b, hasked, hb⟩, hagain⟩ := isClosed_iff_compile hwell (.text "Thing")
  obtain ⟨compiled, hok, hc⟩ :=
    (compile_outcome hwell (.text "Thing")).2 complete_mutualGrants.known
  have hopen : b = false := by
    refine Bool.eq_false_iff.mpr fun htrue => not_closed_mutualGrants ?_
    obtain ⟨compiled', hok', hsame⟩ := hb.mp htrue
    cases hok.symm.trans hok'
    exact (hc.sameNames_iff hwell complete_mutualGrants.known).mp hsame
  exact ⟨hwell, hopen ▸ hasked, compiled, hok, (hagain compiled hok).1⟩

end Declared

end Clearance
