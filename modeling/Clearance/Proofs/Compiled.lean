import Clearance.Proofs.Declared

/-! Compiled credentials hold exactly what follows from the declared ones.

`Declared.Closes` speaks of texts; here it is read back on the values that a
compiled credential lists. The main result is `compile_transitive_closure`: each of
the four relations is the transitive closure of the declared edges it stands for. -/
namespace Clearance

namespace Declared

/-- A mapping from names to credentials that list keys of the mapping and nothing else. -/
structure Complete (source : Declared) : Prop where
  keys : ∀ e ∈ source, e.1.IsName
  distinct : (source.map fun e => e.1.word).Nodup
  entries : ∀ e ∈ source, ∀ r, ∃ items, (e.2.relation r).members? = some items ∧
    ∀ v ∈ items, ∃ e' ∈ source, e'.1.same v = true

variable {source : Declared}

namespace Complete

theorem wellFormed (h : source.Complete) : source.WellFormed where
  keys := h.keys
  distinct := h.distinct
  names e he r := by
    obtain ⟨items, hitems, hall⟩ := h.entries e he r
    refine ⟨items, hitems, ?_⟩
    intro v hv
    obtain ⟨e', he', hsame⟩ := hall v hv
    rw [Value.same_iff_of_isName (h.keys e' he')] at hsame
    exact (Value.text?_eq_some_iff.mp hsame).1

theorem known (h : source.Complete) : source.Known := by
  rintro r a b ⟨e, he, -, items, hitems, v, hv, hb⟩
  obtain ⟨items', hitems', hall⟩ := h.entries e he r
  have heq : items = items' := Option.some.inj (hitems.symm.trans hitems')
  obtain ⟨e', he', hsame⟩ := hall v (heq ▸ hv)
  rw [Value.same_iff_of_isName (h.keys e' he'), hb, Option.some.injEq] at hsame
  exact List.mem_map.mpr ⟨e', he', hsame.symm⟩

end Complete

/-! ## Reading a compiled credential -/

namespace Closes

variable {compiled : List Capability}

theorem map_name (hc : Closes source compiled) :
    compiled.map Capability.name = source.map Prod.fst := by
  have := congrArg (List.map Prod.fst) hc.labelled
  simpa [List.map_map, Function.comp_def] using this

theorem isName (hc : Closes source compiled) (h : source.WellFormed) {c : Capability}
    (hmem : c ∈ compiled) : c.name.IsName := by
  have hname : c.name ∈ source.map Prod.fst := hc.map_name ▸ List.mem_map_of_mem hmem
  obtain ⟨e, he, heq⟩ := List.mem_map.mp hname
  exact heq ▸ h.keys e he

/-- The names of compiled credentials are the keys. -/
theorem map_word (hc : Closes source compiled) :
    (compiled.map fun c => c.name.word) = source.map fun e => e.1.word := by
  have := congrArg (List.map Value.word) hc.map_name
  simpa [List.map_map, Function.comp_def] using this

/-- A name stands in a relation exactly when a path leads there. -/
theorem memberOf_iff_path (hc : Closes source compiled) {c : Capability} (hmem : c ∈ compiled)
    {v : Value} (hv : v.IsName) {r : Relation} :
    Value.memberOf v (c.links.get r) = true ↔ source.Lists.Path r c.name.word v.word := by
  rw [Value.memberOf_iff hv, ← Value.mem_map_word (hc.names c hmem r)]
  exact hc.lists c hmem r v.word

/-- Every relation is strictly ascending in the order of values. -/
theorem strict_links (hc : Closes source compiled) {c : Capability} (hmem : c ∈ compiled)
    (r : Relation) : Ascending.Strict (c.links.get r) :=
  Value.strict_of_map_word (hc.names c hmem r) (hc.strict c hmem r)

/-- Whatever a path leads to is declared. -/
theorem known_of_path (hknown : source.Known) {r : Relation} {a b : String}
    (h : source.Lists.Path r a b) : b ∈ source.map fun e => e.1.word := by
  have hkey : ∀ {r a b}, source.Lists r a b → a ∈ source.map fun e => e.1.word := by
    rintro r a b ⟨e, he, htext, -⟩
    exact List.mem_map.mpr ⟨e, he, (Value.text?_eq_some_iff.mp htext).2⟩
  have hgrants : ∀ {a b}, source.Lists.Grants a b →
      (a ∈ source.map fun e => e.1.word) ∧ b ∈ source.map fun e => e.1.word := by
    rintro a b (h | h | h | h)
    · exact ⟨hkey h, hknown _ _ _ h⟩
    · exact ⟨hkey h, hknown _ _ _ h⟩
    · exact ⟨hknown _ _ _ h, hkey h⟩
    · exact ⟨hknown _ _ _ h, hkey h⟩
  have hends : ∀ {a b}, Relation.TransGen source.Lists.Grants a b →
      (a ∈ source.map fun e => e.1.word) ∧ b ∈ source.map fun e => e.1.word := by
    intro a b hp
    induction hp with
    | single hg => exact hgrants hg
    | tail _ hg ih => exact ⟨ih.1, (hgrants hg).2⟩
  cases r with
  | implies => exact (hends h).2
  | impliedBy => exact (hends h).1
  | subrights => exact (hends (Listing.grantsPath_of_parentPath h)).2
  | subrightOf => exact (hends (Listing.grantsPath_of_parentPath h)).1

/-- Whatever a path leaves from is declared. -/
theorem key_of_path (hknown : source.Known) {r : Relation} {a b : String}
    (h : source.Lists.Path r a b) : a ∈ source.map fun e => e.1.word :=
  known_of_path hknown (Listing.path_mirror.mpr h)

end Closes

/-! ## The transitive closure -/

/-- **Compiling computes the transitive closure in all four relations.** A mapping
whose entries are all keys compiles; keys, labels and descriptions stay as they are;
`implies` and `impliedBy` say from both ends which names a path of grants joins,
`subrights` and `subrightOf` say it for paths of parents alone; every relation is
strictly ascending and lists declared names; and a name lists itself exactly when it
lies on a cycle. -/
theorem compile_transitive_closure (h : source.Complete) (owner : Value) :
    ∃ compiled, (source.compile owner).outcome = .ok compiled ∧
      (compiled.map fun c => (c.name, c.label, c.description)) =
        (source.map fun e => (e.1, e.2.label, e.2.description)) ∧
      (∀ a ∈ compiled, ∀ b ∈ compiled,
        (Value.memberOf b.name a.links.implies = true ↔
          Relation.TransGen source.Lists.Grants a.name.word b.name.word) ∧
        (Value.memberOf a.name b.links.impliedBy = true ↔
          Relation.TransGen source.Lists.Grants a.name.word b.name.word) ∧
        (Value.memberOf b.name a.links.subrights = true ↔
          Relation.TransGen source.Lists.Parent a.name.word b.name.word) ∧
        (Value.memberOf a.name b.links.subrightOf = true ↔
          Relation.TransGen source.Lists.Parent a.name.word b.name.word)) ∧
      (∀ c ∈ compiled, ∀ r, Ascending.Strict (c.links.get r) ∧
        (∀ v ∈ c.links.get r, ∃ b ∈ compiled, b.name.same v = true) ∧
        (Value.memberOf c.name (c.links.get r) = true ↔
          source.Lists.Path r c.name.word c.name.word)) := by
  obtain ⟨compiled, hcompile, hc⟩ := (compile_outcome h.wellFormed owner).2 h.known
  have hname : ∀ c ∈ compiled, c.name.IsName := fun c hmem => hc.isName h.wellFormed hmem
  refine ⟨compiled, hcompile, hc.labelled, ?_, ?_⟩
  · intro a ha b hb
    exact ⟨hc.memberOf_iff_path ha (hname b hb) (r := .implies),
      hc.memberOf_iff_path hb (hname a ha) (r := .impliedBy),
      hc.memberOf_iff_path ha (hname b hb) (r := .subrights),
      hc.memberOf_iff_path hb (hname a ha) (r := .subrightOf)⟩
  · intro c hmem r
    refine ⟨hc.strict_links hmem r, ?_, hc.memberOf_iff_path hmem (hname c hmem)⟩
    intro v hv
    -- a path leads to whatever is listed, and no path leaves the declared names
    have hvname := hc.names c hmem r v hv
    have hpath := (hc.lists c hmem r v.word).mp (List.mem_map_of_mem hv)
    have hkey := Closes.known_of_path h.known hpath
    rw [← hc.map_word] at hkey
    obtain ⟨b, hb, hword⟩ := List.mem_map.mp hkey
    refine ⟨b, hb, ?_⟩
    rw [Value.same_iff_of_isName (hname b hb), hvname.text?, hword]

/-- Two names that list each other under different relations, and a third that
names its parent. -/
def mutualGrants : Declared :=
  [(.text "edit", .ofNames "edit" none none ["view"] [] [] []),
    (.text "view", .ofNames "view" none none [] ["edit"] ["edit"] []),
    (.text "read", .ofNames "read" none none [] [] [] ["view"])]

theorem complete_mutualGrants : mutualGrants.Complete where
  keys := by simp [mutualGrants]
  distinct := by decide
  entries := by
    intro e he r
    simp only [mutualGrants, List.mem_cons, List.not_mem_nil, or_false] at he
    rcases he with rfl | rfl | rfl <;> cases r <;>
      refine ⟨_, rfl, ?_⟩ <;> simp [mutualGrants]

/-- In `mutualGrants` viewing grants itself by way of editing. -/
theorem compile_mutualGrants : mutualGrants.Complete ∧
    ∃ compiled, (mutualGrants.compile (.text "Thing")).outcome = .ok compiled ∧
      ∃ c ∈ compiled, c.name = .text "view" ∧ Value.memberOf c.name c.links.implies = true := by
  refine ⟨complete_mutualGrants, ?_⟩
  obtain ⟨compiled, hcompile, hlabelled, -, hself⟩ :=
    compile_transitive_closure complete_mutualGrants (.text "Thing")
  have hview : (Value.text "view", Caption.given Value.null, Caption.given Value.null) ∈
      compiled.map fun c => (c.name, c.label, c.description) := by
    rw [hlabelled]
    exact .tail _ (.head _)
  obtain ⟨c, hc, heq⟩ := List.mem_map.mp hview
  have hname : c.name = .text "view" := congrArg Prod.fst heq
  refine ⟨compiled, hcompile, c, hc, hname, ?_⟩
  refine ((hself c hc .implies).2.2).mpr ?_
  rw [hname]
  -- the parent `view` grants its child `edit`, which implies `view`
  refine .tail (b := "edit") (.single (.inr (.inl ?_))) (.inl ?_)
  · exact ⟨_, .tail _ (.head _), rfl, _, rfl, _, .head _, rfl⟩
  · exact ⟨_, .head _, rfl, _, rfl, _, .head _, rfl⟩

end Declared

end Clearance
