import Clearance.Closure
import Mathlib.Data.List.Nodup
import Mathlib.Data.List.Perm.Subperm

/-! Strictly ascending lists of names.

Inserting and uniting keep a list strictly ascending, and two strictly ascending
lists with the same members are one list. The closed form of a graph is unique
because of that: what a relation lists is determined by who is in it. -/
namespace Clearance.Ascending

variable {α : Type} [Ord α]

/-- Every name stands before all names behind it, so that none is there twice. -/
def Strict (xs : List α) : Prop :=
  xs.Pairwise fun x y => compare x y = .lt

theorem strict_nil : Strict ([] : List α) :=
  List.Pairwise.nil

theorem strict_cons {x : α} {xs : List α} :
    Strict (x :: xs) ↔ (∀ y ∈ xs, compare x y = .lt) ∧ Strict xs :=
  List.pairwise_cons

variable [Std.LawfulEqOrd α]

theorem Strict.nodup {xs : List α} (h : Strict xs) : xs.Nodup := by
  refine List.Pairwise.imp ?_ h
  intro x y hlt heq
  subst heq
  rw [Std.ReflOrd.compare_self] at hlt
  cases hlt

variable [Std.TransOrd α]

theorem strict_insert {x : α} {xs : List α} (h : Strict xs) : Strict (insert x xs) := by
  induction xs with
  | nil => simp [insert, Strict]
  | cons y rest ih =>
    obtain ⟨hfront, hrest⟩ := strict_cons.mp h
    simp only [insert]
    split
    · rename_i hlt
      refine strict_cons.mpr ⟨?_, h⟩
      intro z hz
      rcases List.mem_cons.mp hz with rfl | hmem
      · exact hlt
      · exact Std.TransCmp.lt_trans hlt (hfront z hmem)
    · rename_i heq
      rw [Std.LawfulEqOrd.eq_of_compare heq]
      exact h
    · rename_i hgt
      refine strict_cons.mpr ⟨?_, ih hrest⟩
      intro z hz
      rcases mem_insert.mp hz with rfl | hmem
      · exact Std.OrientedCmp.lt_of_gt hgt
      · exact hfront z hmem

theorem strict_union {xs ys : List α} (hx : Strict xs) (hy : Strict ys) :
    Strict (union xs ys) := by
  fun_induction union xs ys with
  | case1 ys => exact hy
  | case2 x xs => exact hx
  | case3 x xs y ys hlt ih =>
    obtain ⟨hfront, hrest⟩ := strict_cons.mp hx
    obtain ⟨hfront', -⟩ := strict_cons.mp hy
    refine strict_cons.mpr ⟨?_, ih hrest hy⟩
    intro z hz
    rcases mem_union.mp hz with hmem | hmem
    · exact hfront z hmem
    · rcases List.mem_cons.mp hmem with rfl | hmem
      · exact hlt
      · exact Std.TransCmp.lt_trans hlt (hfront' z hmem)
  | case4 x xs y ys heq ih =>
    obtain ⟨hfront, hrest⟩ := strict_cons.mp hx
    obtain ⟨hfront', hrest'⟩ := strict_cons.mp hy
    refine strict_cons.mpr ⟨?_, ih hrest hrest'⟩
    intro z hz
    rcases mem_union.mp hz with hmem | hmem
    · exact hfront z hmem
    · exact Std.TransCmp.lt_of_eq_of_lt heq (hfront' z hmem)
  | case5 x xs y ys hgt ih =>
    obtain ⟨hfront, -⟩ := strict_cons.mp hx
    obtain ⟨hfront', hrest'⟩ := strict_cons.mp hy
    have hlt : compare y x = .lt := Std.OrientedCmp.lt_of_gt hgt
    refine strict_cons.mpr ⟨?_, ih hx hrest'⟩
    intro z hz
    rcases mem_union.mp hz with hmem | hmem
    · rcases List.mem_cons.mp hmem with rfl | hmem
      · exact hlt
      · exact Std.TransCmp.lt_trans hlt (hfront z hmem)
    · exact hfront' z hmem

/-- A strictly ascending list is determined by its members. -/
theorem eq_of_mem_iff {xs ys : List α} (hx : Strict xs) (hy : Strict ys)
    (h : ∀ z, z ∈ xs ↔ z ∈ ys) : xs = ys := by
  have hperm : xs.Perm ys := (List.perm_ext_iff_of_nodup hx.nodup hy.nodup).mpr h
  refine hperm.eq_of_pairwise ?_ hx hy
  intro a b _ _ hab hba
  rw [Std.OrientedCmp.gt_of_lt hab] at hba
  cases hba

end Clearance.Ascending
