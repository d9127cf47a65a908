import Clearance.Proofs.Graph.Merges

/-! Passes only ever add.

Uniting keeps every name of the first list in its place (`Ascending.sublist_union`), so that a
pass leaves every list a sublist of what it becomes. A graph that equals the one before a
pass is therefore that very graph: not a name was exchanged for an equal one
(`pass_eq_of_beq`). -/
namespace Clearance

variable {α : Type}

theorem Ascending.sublist_union [Ord α] (xs ys : List α) : xs.Sublist (union xs ys) := by
  fun_induction union xs ys with
  | case1 ys => exact List.nil_sublist ys
  | case2 x xs => exact List.Sublist.refl _
  | case3 x xs y ys _ ih => exact ih.cons_cons x
  | case4 x xs y ys _ ih => exact ih.cons_cons x
  | case5 x xs y ys _ ih => exact ih.cons y

namespace Graph

/-- The names stay, and every list is a sublist of the one it becomes. -/
def Grows (g h : Graph α) : Prop :=
  List.Forall₂ (fun e e' => e'.1 = e.1 ∧ ∀ r, (e.2.get r).Sublist (e'.2.get r)) g h

namespace Grows

variable {g h k : Graph α}

theorem refl (g : Graph α) : g.Grows g :=
  List.forall₂_same.mpr fun e _ => ⟨rfl, fun r => List.Sublist.refl (e.2.get r)⟩

theorem trans (hgh : g.Grows h) (hhk : h.Grows k) : g.Grows k := by
  induction hgh generalizing k with
  | nil => exact hhk
  | cons hhead _ ih =>
    cases hhk with
    | cons hhead' hrest =>
      exact .cons ⟨hhead'.1.trans hhead.1, fun r => (hhead.2 r).trans (hhead'.2 r)⟩ (ih hrest)

/-- Equal lists of which one is a sublist of the other are one list, name by name. -/
theorem eq_of_beq [BEq α] (hgh : g.Grows h) (heq : (h == g) = true) : h = g := by
  induction hgh with
  | nil => rfl
  | @cons e e' _ _ hhead _ ih =>
    rw [List.cons_beq_cons, Bool.and_eq_true] at heq
    have hlinks : (e'.2 == e.2) = true := (Bool.and_eq_true_iff.mp heq.1).2
    simp only [Links.beq_eq, Bool.and_eq_true] at hlinks
    have hlength : ∀ r, (e.2.get r).length = (e'.2.get r).length := by
      intro r
      cases r
      · exact (List.length_eq_of_beq hlinks.1).symm
      · exact (List.length_eq_of_beq hlinks.2.1).symm
      · exact (List.length_eq_of_beq hlinks.2.2.1).symm
      · exact (List.length_eq_of_beq hlinks.2.2.2).symm
    have hsame : e' = e := Prod.ext hhead.1
      (Links.ext_get fun r => ((hhead.2 r).eq_of_length (hlength r)).symm)
    rw [hsame, ih heq.2]

end Grows

variable [Ord α] [BEq α]

theorem grows_extend (g : Graph α) (t : α) (s : Relation) (added : List α) :
    g.Grows (g.extend t s added) := by
  induction g with
  | nil => exact .nil
  | cons e rest ih =>
    obtain ⟨name, links⟩ := e
    simp only [extend]
    split
    · refine .cons ⟨rfl, fun r => ?_⟩ (Grows.refl rest)
      by_cases hr : r = s
      · subst hr
        rw [Links.get_set_self]
        exact Ascending.sublist_union (links.get r) added
      · rw [Links.get_set_of_ne _ _ hr]
    · exact .cons ⟨rfl, fun r => List.Sublist.refl _⟩ ih

theorem grows_foldl_merge (ms : List (Merge α)) (g : Graph α) : g.Grows (ms.foldl merge g) :=
  List.foldlRecOn ms merge (Grows.refl g) fun k hk m _ =>
    hk.trans (grows_extend k m.target m.relation m.added)

theorem grows_pass (g : Graph α) : g.Grows g.pass := by
  rw [pass, foldl_visit_eq_foldl]
  exact grows_foldl_merge _ g

/-- **A pass that leaves a graph equal leaves it as it is.** -/
theorem pass_eq_of_beq {g : Graph α} (h : (g.pass == g) = true) : g.pass = g :=
  (grows_pass g).eq_of_beq h

/-- A graph that a pass leaves equal is closed in one pass, and stays as it is. -/
theorem close_of_pass_beq {g : Graph α} (h : (g.pass == g) = true) : g.close = (g, 1) := by
  rw [close, settle]
  simp only [h, if_true]
  rw [pass_eq_of_beq h]

end Graph

end Clearance
