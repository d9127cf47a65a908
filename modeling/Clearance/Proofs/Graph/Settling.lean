import Clearance.Proofs.Graph.Pass
import Mathlib.Data.Finset.Prod
import Mathlib.Data.Fintype.Basic

/-! Passes settle in the closed form.

A pass adds only what is joined by a path (`Stage.visit`), leaves nothing open
when it changes nothing (`closed_of_pass_eq`), and else makes a finite set of facts
larger (`card_facts_lt`). So the passes that `close` allows are enough, and
`lists_close` says what they arrive at. -/
namespace Clearance

theorem Links.ext_get {α : Type} {l m : Links α} (h : ∀ r, l.get r = m.get r) : l = m := by
  cases l
  cases m
  have h1 := h .implies
  have h2 := h .impliedBy
  have h3 := h .subrights
  have h4 := h .subrightOf
  simp only [Links.get] at h1 h2 h3 h4
  simp [h1, h2, h3, h4]

/-- Relations are compared one after the other. -/
theorem Links.beq_eq {α : Type} [BEq α] (l m : Links α) :
    (l == m) = (l.get .implies == m.get .implies && (l.get .impliedBy == m.get .impliedBy &&
      (l.get .subrights == m.get .subrights && l.get .subrightOf == m.get .subrightOf))) := by
  cases l
  cases m
  rfl

instance {α : Type} [BEq α] [LawfulBEq α] : LawfulBEq (Links α) where
  rfl {l} := by
    simp [Links.beq_eq]
  eq_of_beq {l m} h := by
    simp only [Links.beq_eq, Bool.and_eq_true, beq_iff_eq] at h
    refine Links.ext_get ?_
    intro r
    cases r
    · exact h.1
    · exact h.2.1
    · exact h.2.2.1
    · exact h.2.2.2

namespace Graph

variable {α : Type} [BEq α]

/-- Names are declared once, lists are strictly ascending and hold declared names alone. -/
structure WellFormed [Ord α] (g : Graph α) : Prop where
  nodup : g.names.Nodup
  strict : ∀ r a, Ascending.Strict ((g.linksOf a).get r)
  known : ∀ r a b, g.Lists r a b → b ∈ g.names

/-! ## The facts of a graph -/

open scoped Classical in
/-- The facts that a graph with some names can list. -/
noncomputable def possibleFacts (names : List α) : Finset (Relation × α × α) :=
  Relation.all.toFinset ×ˢ names.toFinset ×ˢ names.toFinset

open scoped Classical in
/-- The facts that a graph lists. -/
noncomputable def facts (g : Graph α) : Finset (Relation × α × α) :=
  (possibleFacts g.names).filter fun t => g.Lists t.1 t.2.1 t.2.2

theorem card_facts_le (g : Graph α) : g.facts.card ≤ 4 * g.length * g.length := by
  classical
  have hnames : g.names.toFinset.card ≤ g.length := by
    refine (List.toFinset_card_le _).trans ?_
    simp [names]
  calc g.facts.card
      ≤ (possibleFacts g.names).card := Finset.card_filter_le _ _
    _ = 4 * (g.names.toFinset.card * g.names.toFinset.card) := by
        rw [possibleFacts, Finset.card_product, Finset.card_product]
        rfl
    _ ≤ 4 * (g.length * g.length) := Nat.mul_le_mul_left _ (Nat.mul_le_mul hnames hnames)
    _ = 4 * g.length * g.length := (Nat.mul_assoc _ _ _).symm

theorem mem_facts [Ord α] [LawfulBEq α] {g : Graph α} (hg : g.WellFormed) {r : Relation} {a b : α} :
    (r, a, b) ∈ g.facts ↔ g.Lists r a b := by
  simp only [facts, possibleFacts, Finset.mem_filter, Finset.mem_product, List.mem_toFinset]
  constructor
  · exact And.right
  · intro h
    exact ⟨⟨Relation.mem_all r, mem_names_of_lists h, hg.known r a b h⟩, h⟩

/-! ## Graphs are determined by what they list -/

section Extensionality

theorem linksOf_eq_of_lists_iff [Ord α] [Std.TransOrd α] [Std.LawfulEqOrd α] {g h : Graph α}
    (hg : g.WellFormed) (hh : h.WellFormed) {a : α}
    (hlists : ∀ r b, g.Lists r a b ↔ h.Lists r a b) : g.linksOf a = h.linksOf a :=
  Links.ext_get fun r => Ascending.eq_of_mem_iff (hg.strict r a) (hh.strict r a) (hlists r)

variable [LawfulBEq α]

theorem eq_of_linksOf_eq {g h : Graph α} (hnames : g.names = h.names) (hnodup : g.names.Nodup)
    (hlinks : ∀ a ∈ g.names, g.linksOf a = h.linksOf a) : g = h := by
  induction g generalizing h with
  | nil =>
    cases h with
    | nil => rfl
    | cons e rest => simp [names] at hnames
  | cons e rest ih =>
    obtain ⟨name, links⟩ := e
    cases h with
    | nil => simp [names] at hnames
    | cons e' rest' =>
      obtain ⟨name', links'⟩ := e'
      simp only [names_cons, List.cons.injEq] at hnames
      obtain ⟨rfl, htail⟩ := hnames
      rw [names_cons, List.nodup_cons] at hnodup
      have hhead := hlinks name List.mem_cons_self
      rw [linksOf_cons_self, linksOf_cons_self] at hhead
      -- names behind the first are other names, so that their lists are those of the rest
      have hrest : rest = rest' := by
        refine ih htail hnodup.2 ?_
        intro a ha
        have hne : a ≠ name := by
          rintro rfl
          exact hnodup.1 ha
        have := hlinks a (List.mem_cons_of_mem _ ha)
        rwa [linksOf_cons_of_ne hne, linksOf_cons_of_ne hne] at this
      rw [hhead, hrest]

theorem eq_of_lists_iff [Ord α] [Std.TransOrd α] [Std.LawfulEqOrd α] {g h : Graph α}
    (hg : g.WellFormed) (hh : h.WellFormed) (hnames : g.names = h.names)
    (hlists : ∀ r a b, g.Lists r a b ↔ h.Lists r a b) : g = h :=
  eq_of_linksOf_eq hnames hg.nodup fun a _ =>
    linksOf_eq_of_lists_iff hg hh fun r b => hlists r a b

end Extensionality

/-! ## Strictness is kept -/

section Strictness

variable [LawfulBEq α] [Ord α] [Std.TransOrd α] [Std.LawfulEqOrd α]

/-- Every list of a graph is strictly ascending. -/
def AllStrict (g : Graph α) : Prop :=
  ∀ r a, Ascending.Strict ((g.linksOf a).get r)

theorem allStrict_extend {g : Graph α} (h : g.AllStrict) {added : List α}
    (hadded : Ascending.Strict added) (t : α) (s : Relation) :
    (g.extend t s added).AllStrict := by
  intro r a
  by_cases ha : a = t
  · subst ha
    by_cases hmem : a ∈ g.names
    · rw [linksOf_extend_self hmem]
      by_cases hr : r = s
      · subst hr
        rw [Links.get_set_self]
        exact Ascending.strict_union (h r a) hadded
      · rw [Links.get_set_of_ne _ _ hr]
        exact h r a
    · have hmem' : a ∉ (g.extend a s added).names := by simpa using hmem
      rw [linksOf_of_not_mem hmem', ← linksOf_of_not_mem hmem]
      exact h r a
  · rw [linksOf_extend_of_ne ha]
    exact h r a

theorem allStrict_visit {g : Graph α} (h : g.AllStrict) (x : α) : (g.visit x).AllStrict := by
  have hlist : ∀ r, Ascending.Strict (Ascending.insert x ((g.linksOf x).get r)) :=
    fun r => Ascending.strict_insert (h r x)
  -- four loops follow each other; each extends lists by one that was strict at the start
  refine List.foldlRecOn _ _ (List.foldlRecOn _ _ (List.foldlRecOn _ _
    (List.foldlRecOn _ _ h ?_) ?_) ?_) ?_
  · intro g hg t _
    exact allStrict_extend hg (hlist .implies) t _
  · intro g hg t _
    exact allStrict_extend hg (hlist .impliedBy) t _
  · intro g hg t _
    exact allStrict_extend (allStrict_extend hg (hlist .subrightOf) t _) (hlist .impliedBy) t _
  · intro g hg t _
    exact allStrict_extend (allStrict_extend hg (hlist .subrights) t _) (hlist .implies) t _

end Strictness

/-! ## A pass that changes nothing -/

section Unchanged

variable [Ord α] [LawfulBEq α] [Std.LawfulEqOrd α]

theorem lists_foldl_visit {g : Graph α} {names : List α} {r : Relation} {a b : α}
    (h : g.Lists r a b) : (names.foldl Graph.visit g).Lists r a b := by
  refine List.foldlRecOn (motive := fun k => k.Lists r a b) names Graph.visit h ?_
  intro k hk x _
  exact lists_visit.mpr (.inl hk)

/-- Whatever a graph has left to pass on is there after one pass: the visits in
front of `x` only add to what `x` passes on. -/
theorem lists_pass_of_passes {g : Graph α} (hg : g.WellFormed) {x : α} {r : Relation} {a b : α}
    (h : g.Lists.Passes x r a b) : g.pass.Lists r a b := by
  have ha : a ∈ g.names := by
    cases r with
    | implies => exact h.1.elim (hg.known _ _ _) (hg.known _ _ _)
    | impliedBy => exact h.1.elim (hg.known _ _ _) (hg.known _ _ _)
    | subrights => exact hg.known _ _ _ h.1
    | subrightOf => exact hg.known _ _ _ h.1
  have hx : x ∈ g.names := by
    cases r with
    | implies => exact h.1.elim mem_names_of_lists mem_names_of_lists
    | impliedBy => exact h.1.elim mem_names_of_lists mem_names_of_lists
    | subrights => exact mem_names_of_lists h.1
    | subrightOf => exact mem_names_of_lists h.1
  -- the visits before `x` only add facts, so `x` still has all of this to pass on
  obtain ⟨before, after, hnames⟩ := List.append_of_mem hx
  rw [Graph.pass, hnames, List.foldl_append, List.foldl_cons]
  refine lists_foldl_visit (lists_visit.mpr (.inr ⟨?_, h.mono fun _ _ _ => lists_foldl_visit⟩))
  rw [names_foldl names_visit]
  exact ha

theorem closed_of_pass_eq {g : Graph α} (hg : g.WellFormed) (h : g.pass = g) :
    g.Lists.Closed := by
  intro x r a b hpass
  have := lists_pass_of_passes hg hpass
  rwa [h] at this

end Unchanged

/-! ## Stages of closing a graph -/

section Stages

variable [Ord α]

/-- A graph that closing `g` may pass through: it keeps what `g` lists, and lists
only what paths of `g` join. -/
structure Stage (g h : Graph α) : Prop where
  names : h.names = g.names
  wellFormed : h.WellFormed
  keeps : ∀ r a b, g.Lists r a b → h.Lists r a b
  sound : ∀ r a b, h.Lists r a b → g.Lists.Path r a b

theorem Stage.refl {g : Graph α} (h : g.WellFormed) : g.Stage g :=
  ⟨rfl, h, fun _ _ _ => id, fun _ _ _ => Listing.path_of_lists⟩

variable [LawfulBEq α] [Std.TransOrd α] [Std.LawfulEqOrd α]

/-- One visit leads from stage to stage. -/
theorem Stage.visit {g h : Graph α} (hs : g.Stage h) {x : α} (hx : x ∈ g.names) :
    g.Stage (h.visit x) where
  names := by rw [names_visit, hs.names]
  wellFormed :=
    { nodup := by
        rw [names_visit]
        exact hs.wellFormed.nodup
      strict := allStrict_visit hs.wellFormed.strict x
      known := by
        intro r a b hlist
        rw [names_visit]
        rcases lists_visit.mp hlist with hold | ⟨-, -, rfl | hb⟩
        · exact hs.wellFormed.known r a b hold
        · exact hs.names ▸ hx
        · exact hs.wellFormed.known r x b hb }
  keeps r a b hlist := lists_visit.mpr (.inl (hs.keeps r a b hlist))
  sound r a b hlist := by
    rcases lists_visit.mp hlist with hold | ⟨-, hpass⟩
    · exact hs.sound r a b hold
    · exact Listing.path_of_passes (hpass.mono hs.sound)

theorem Stage.pass {g h : Graph α} (hs : g.Stage h) : g.Stage h.pass := by
  refine List.foldlRecOn h.names Graph.visit hs ?_
  intro k hk x hx
  exact hk.visit (hs.names ▸ hx)

/-! ## Passes that change something -/

/-- Every pass but the last adds a fact. -/
theorem card_facts_lt {g : Graph α} (hg : g.WellFormed) (h : g.pass ≠ g) :
    g.facts.card < g.pass.facts.card := by
  have hpass := (Stage.refl hg).pass
  refine Finset.card_lt_card ((Finset.ssubset_iff_subset_ne).mpr ⟨?_, ?_⟩)
  · rintro ⟨r, a, b⟩ ht
    exact (mem_facts hpass.wellFormed).mpr (hpass.keeps r a b ((mem_facts hg).mp ht))
  · intro heq
    refine h (eq_of_lists_iff hpass.wellFormed hg hpass.names ?_)
    intro r a b
    rw [← mem_facts hg, ← mem_facts hpass.wellFormed, heq]

/-- With enough fuel, settling ends at a stage that a pass leaves as it is. -/
theorem Stage.settle {g h : Graph α} (hs : g.Stage h) {fuel : Nat}
    (hfuel : 4 * g.length * g.length < h.facts.card + fuel) :
    g.Stage (h.settle fuel).1 ∧ (h.settle fuel).1.pass = (h.settle fuel).1 := by
  have hlength : h.length = g.length := by
    have := congrArg List.length hs.names
    simpa [Graph.names] using this
  induction fuel generalizing h with
  | zero =>
    -- without fuel the graph would list more facts than there can be
    have := card_facts_le h
    rw [hlength] at this
    omega
  | succ fuel ih =>
    simp only [Graph.settle]
    split
    · rename_i heq
      have hfix : h.pass = h := eq_of_beq heq
      rw [hfix]
      exact ⟨hs, hfix⟩
    · rename_i hne
      -- the pass spends one unit of fuel and adds at least one fact
      have hlt : h.facts.card < h.pass.facts.card := by
        refine card_facts_lt hs.wellFormed ?_
        intro heq
        rw [heq] at hne
        simp at hne
      refine ih hs.pass (by omega) ?_
      rw [← hlength]
      have := congrArg List.length (names_pass h)
      simpa [Graph.names] using this

/-- Closing ends at a stage that a pass leaves as it is. -/
theorem stage_close {g : Graph α} (hg : g.WellFormed) :
    g.Stage g.close.1 ∧ g.close.1.pass = g.close.1 :=
  (Stage.refl hg).settle (by omega)

/-- **The closed form.** Closing a graph makes every list hold exactly the names
that a path of the graph joins. -/
theorem lists_close {g : Graph α} (hg : g.WellFormed) {r : Relation} {a b : α} :
    g.close.1.Lists r a b ↔ g.Lists.Path r a b := by
  obtain ⟨hstage, hfix⟩ := stage_close hg
  exact Listing.iff_path (closed_of_pass_eq hstage.wellFormed hfix) hstage.keeps hstage.sound

end Stages

end Graph

end Clearance
