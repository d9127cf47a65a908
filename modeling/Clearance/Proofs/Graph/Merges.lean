import Clearance.Proofs.Graph.Renaming

/-! What closing writes, merge by merge.

All that a pass does is to merge ascending lists of names into lists of other names, one after
another. The merges of a whole run are listed here in the order in which they are made
(`Graph.merges`), and making them one after another is what closing does
(`close_eq_foldl`). Whatever holds of all names of a graph, and of all that they list,
holds of every name that a merge looks up or places (`within_merges`). -/
namespace Clearance

/-- An ascending list of names that is merged into one list of a name. -/
structure Merge (α : Type) where
  target : α
  relation : Relation
  added : List α

/-- The name that a merge looks up and the names that it places are of one kind. -/
structure Merge.Within {α : Type} (S : α → Prop) (m : Merge α) : Prop where
  target : S m.target
  added : ∀ b ∈ m.added, S b

namespace Graph

variable {α : Type} [Ord α] [BEq α]

/-- A graph after one merge. -/
def merge (g : Graph α) (m : Merge α) : Graph α :=
  g.extend m.target m.relation m.added

/-- The merges of one visit: to the ones that imply a name, to those that it implies, to its
children and to its parents. -/
def visitMerges (g : Graph α) (x : α) : List (Merge α) :=
  let links := g.linksOf x
  let handed (r : Relation) (target : α) : Merge α :=
    ⟨target, r, Ascending.insert x (links.get r)⟩
  links.impliedBy.map (handed .implies) ++ links.implies.map (handed .impliedBy) ++
    links.subrights.flatMap (fun sub => [handed .subrightOf sub, handed .impliedBy sub]) ++
    links.subrightOf.flatMap fun parent => [handed .subrights parent, handed .implies parent]

/-- The merges of visits to some names. -/
def visitsMerges : List α → Graph α → List (Merge α)
  | [], _ => []
  | x :: rest, g => g.visitMerges x ++ visitsMerges rest (g.visit x)

/-- The merges of passes until one changes nothing, or the fuel is spent. -/
def settleMerges : Nat → Graph α → List (Merge α)
  | 0, _ => []
  | fuel + 1, g =>
    visitsMerges g.names g ++ if g.pass == g then [] else settleMerges fuel g.pass

/-- All merges that closing a graph makes. -/
def merges (g : Graph α) : List (Merge α) :=
  g.settleMerges (4 * g.length * g.length + 1)

variable {g : Graph α}

/-! ## The merges are what closing does -/

theorem visit_eq_foldl (g : Graph α) (x : α) : g.visit x = (g.visitMerges x).foldl merge g := by
  simp only [visit, visitMerges, List.foldl_append, List.foldl_map, List.foldl_flatMap,
    List.foldl_cons, List.foldl_nil]
  rfl

theorem foldl_visit_eq_foldl (names : List α) (g : Graph α) :
    names.foldl visit g = (visitsMerges names g).foldl merge g := by
  induction names generalizing g with
  | nil => rfl
  | cons x rest ih => rw [List.foldl_cons, visitsMerges, List.foldl_append, ← visit_eq_foldl, ih]

theorem settle_eq_foldl (fuel : Nat) (g : Graph α) :
    (g.settle fuel).1 = (g.settleMerges fuel).foldl merge g := by
  induction fuel generalizing g with
  | zero => rfl
  | succ fuel ih =>
    rw [settleMerges, List.foldl_append, ← foldl_visit_eq_foldl, settle]
    change _ = List.foldl merge g.pass _
    split
    · rfl
    · exact ih g.pass

/-- **Closing is its merges**, made one after another. -/
theorem close_eq_foldl (g : Graph α) : g.close.1 = g.merges.foldl merge g :=
  settle_eq_foldl _ g

theorem names_foldl_merge (ms : List (Merge α)) (g : Graph α) :
    (ms.foldl merge g).names = g.names :=
  List.foldlRecOn (motive := fun k => k.names = g.names) ms merge rfl
    fun _ hk _ _ => (names_extend ..).trans hk

/-! ## What merges look up and place -/

variable {S : α → Prop}

theorem Within.foldl_merge (h : g.Within S) {ms : List (Merge α)} (hms : ∀ m ∈ ms, m.Within S) :
    (ms.foldl merge g).Within S :=
  List.foldlRecOn (motive := Within S) ms merge h
    fun _ hk m hm => hk.extend (hms m hm).added m.target m.relation

theorem within_visitMerges (h : g.Within S) {x : α} (hx : S x) :
    ∀ m ∈ g.visitMerges x, m.Within S := by
  have hhanded : ∀ {s r t}, t ∈ (g.linksOf x).get s →
      Merge.Within S ⟨t, r, Ascending.insert x ((g.linksOf x).get r)⟩ :=
    fun ht => ⟨h.links x _ _ ht, Ascending.forall_insert hx (h.links x _)⟩
  simp only [visitMerges, List.forall_mem_append, List.forall_mem_map, List.mem_flatMap,
    forall_exists_index, and_imp]
  refine ⟨⟨⟨?_, ?_⟩, ?_⟩, ?_⟩
  · exact fun t ht => hhanded (s := .impliedBy) ht
  · exact fun t ht => hhanded (s := .implies) ht
  · intro m t ht hm
    rw [List.mem_pair] at hm
    rcases hm with rfl | rfl
    · exact hhanded (s := .subrights) ht
    · exact hhanded (s := .subrights) ht
  · intro m t ht hm
    rw [List.mem_pair] at hm
    rcases hm with rfl | rfl
    · exact hhanded (s := .subrightOf) ht
    · exact hhanded (s := .subrightOf) ht

theorem within_visitsMerges {names : List α} (hnames : ∀ x ∈ names, S x) (h : g.Within S) :
    ∀ m ∈ visitsMerges names g, m.Within S := by
  induction names generalizing g with
  | nil => simp [visitsMerges]
  | cons x rest ih =>
    rw [List.forall_mem_cons] at hnames
    have hvisit := within_visitMerges h hnames.1
    refine List.forall_mem_append.mpr ⟨hvisit, ih hnames.2 ?_⟩
    rw [visit_eq_foldl]
    exact h.foldl_merge hvisit

theorem within_settleMerges (h : g.Within S) (fuel : Nat) :
    ∀ m ∈ g.settleMerges fuel, m.Within S := by
  induction fuel generalizing g with
  | zero => simp [settleMerges]
  | succ fuel ih =>
    have hpass := within_visitsMerges (fun x hx => h.name hx) h
    refine List.forall_mem_append.mpr ⟨hpass, ?_⟩
    split
    · simp
    · refine ih ?_
      rw [pass, foldl_visit_eq_foldl]
      exact h.foldl_merge hpass

/-- **Nothing comes from outside.** When a merge is made, the name that it looks up and the
names that it places are of any kind that all names of the graph and all listed names are of;
and so is everything that is listed until then. -/
theorem within_merges (h : g.Within S) {before after : List (Merge α)} {m : Merge α}
    (hms : g.merges = before ++ m :: after) : m.Within S ∧ (before.foldl merge g).Within S := by
  have hall : ∀ m ∈ g.merges, m.Within S := within_settleMerges h _
  rw [hms, List.forall_mem_append, List.forall_mem_cons] at hall
  exact ⟨hall.2.1, h.foldl_merge hall.1⟩

end Graph

end Clearance
