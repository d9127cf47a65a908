import Clearance.Proofs.Listing
import Mathlib.Data.Finset.Card
import Mathlib.Data.Nat.Find

/-! Paths by their number of edges.

A path between names needs no more edges than there are names: a longer one comes
through some name twice, and what lies between can be left out (`Walk.shorten`).
`Listing.Reach n` is the part of `Listing.Path` that takes at most `n` edges; all of it is
there once `n` is the number of names, and twice the length is reached through a name in the
middle (`reach_double`). -/
namespace Clearance

variable {α : Type}

/-- A path of `n` edges from `a` to `b`: the names it comes through, in order. -/
def Walk (R : α → α → Prop) (n : Nat) (a b : α) : Prop :=
  ∃ via : Nat → α, via 0 = a ∧ via n = b ∧ ∀ i < n, R (via i) (via (i + 1))

namespace Walk

variable {R : α → α → Prop} {a b c : α} {m n : Nat}

theorem single (h : R a b) : Walk R 1 a b := by
  refine ⟨fun i => if i = 0 then a else b, rfl, rfl, ?_⟩
  intro i hi
  obtain rfl : i = 0 := by omega
  exact h

theorem tail (h : Walk R n a b) (hbc : R b c) : Walk R (n + 1) a c := by
  obtain ⟨f, hstart, hend, hedges⟩ := h
  refine ⟨fun i => if i ≤ n then f i else c, by simpa using hstart, by simp, ?_⟩
  intro i hi
  by_cases hlast : i = n
  · subst hlast
    simpa [hend, Nat.not_succ_le_self] using hbc
  · simpa [show i ≤ n by omega, show i + 1 ≤ n by omega] using hedges i (by omega)

theorem edge (h : Walk R 1 a b) : R a b := by
  obtain ⟨f, rfl, rfl, hedges⟩ := h
  exact hedges 0 Nat.one_pos

/-- A walk passes through a name after any number of its edges. -/
theorem split (h : Walk R (m + n) a b) : ∃ c, Walk R m a c ∧ Walk R n c b := by
  obtain ⟨f, rfl, rfl, hedges⟩ := h
  refine ⟨f m, ⟨f, rfl, rfl, ?_⟩, ⟨fun i => f (m + i), rfl, rfl, ?_⟩⟩
  · intro i hi
    exact hedges i (by omega)
  · intro i hi
    exact hedges (m + i) (by omega)

/-- What lies between two visits to one name can be left out. -/
theorem cut {f : Nat → α} {i j : Nat} (hedges : ∀ k < n, R (f k) (f (k + 1))) (hij : i < j)
    (hj : j ≤ n) (hsame : f i = f j) : Walk R (n - (j - i)) (f 0) (f n) := by
  refine ⟨fun k => if k ≤ i then f k else f (k + (j - i)), by simp, ?_, ?_⟩
  · by_cases hlast : n - (j - i) ≤ i
    · obtain rfl : j = n := by omega
      simpa [show j - (j - i) = i by omega] using hsame
    · simp [hlast, show n - (j - i) + (j - i) = n by omega]
  · intro k hk
    rcases Nat.lt_trichotomy k i with hlt | rfl | hgt
    · simpa [hlt.le, show k + 1 ≤ i by omega] using hedges k (by omega)
    · -- the first edge behind the cut starts where the part that is left out ends
      have hedge := hedges j (by omega)
      rw [← hsame] at hedge
      simpa [Nat.not_succ_le_self, show k + 1 + (j - k) = j + 1 by omega] using hedge
    · simpa [show ¬ k ≤ i by omega, show ¬ k + 1 ≤ i by omega,
        show k + 1 + (j - i) = k + (j - i) + 1 by omega] using hedges (k + (j - i)) (by omega)

/-- A walk with more edges than there are names to arrive at can be cut short. -/
theorem shorten {names : List α} (hnames : ∀ a b, R a b → b ∈ names) (h : Walk R n a b)
    (hlong : names.length < n) : ∃ m, 0 < m ∧ m < n ∧ Walk R m a b := by
  classical
  obtain ⟨f, rfl, rfl, hedges⟩ := h
  -- the start is left out of the count, so that at least one edge remains
  have harrive : Set.MapsTo (fun k => f (k + 1)) (Finset.range n) names.toFinset := by
    intro k hk
    rw [Finset.mem_coe, List.mem_toFinset]
    exact hnames _ _ (hedges k (by simpa using hk))
  have hcard : names.toFinset.card < (Finset.range n).card := by
    rw [Finset.card_range]
    exact (List.toFinset_card_le names).trans_lt hlong
  obtain ⟨x, hx, y, hy, hne, hsame⟩ := Finset.exists_ne_map_eq_of_card_lt_of_maps_to hcard harrive
  rw [Finset.mem_range] at hx hy
  rcases Nat.lt_or_gt_of_ne hne with hlt | hgt
  · exact ⟨n - (y + 1 - (x + 1)), by omega, by omega, cut hedges (by omega) (by omega) hsame⟩
  · exact ⟨n - (x + 1 - (y + 1)), by omega, by omega, cut hedges (by omega) (by omega) hsame.symm⟩

end Walk

/-- Two names are joined by a path of at least one and at most `n` edges. -/
def ShortWalk (R : α → α → Prop) (n : Nat) (a b : α) : Prop :=
  ∃ m, 0 < m ∧ m ≤ n ∧ Walk R m a b

namespace ShortWalk

variable {R : α → α → Prop} {a b : α} {m n : Nat}

theorem mono (h : ShortWalk R m a b) (hmn : m ≤ n) : ShortWalk R n a b := by
  obtain ⟨k, hpos, hle, hwalk⟩ := h
  exact ⟨k, hpos, hle.trans hmn, hwalk⟩

theorem edge (h : ShortWalk R 1 a b) : R a b := by
  obtain ⟨k, hpos, hle, hwalk⟩ := h
  obtain rfl : k = 1 := by omega
  exact hwalk.edge

/-- Whatever a path joins is joined by one with no more edges than there are names. -/
theorem of_transGen {names : List α} (hnames : ∀ a b, R a b → b ∈ names)
    (h : Relation.TransGen R a b) : ShortWalk R names.length a b := by
  classical
  have hwalk : ∃ n, 0 < n ∧ Walk R n a b := by
    induction h with
    | single hab => exact ⟨1, Nat.one_pos, .single hab⟩
    | tail _ hbc ih =>
      obtain ⟨n, -, hn⟩ := ih
      exact ⟨n + 1, n.succ_pos, hn.tail hbc⟩
  -- the shortest of these walks cannot be cut short any more
  obtain ⟨hpos, hshortest⟩ := Nat.find_spec hwalk
  refine ⟨Nat.find hwalk, hpos, ?_, hshortest⟩
  by_contra hlong
  obtain ⟨m, hm, hlt, hshorter⟩ := hshortest.shorten hnames (Nat.lt_of_not_le hlong)
  exact Nat.find_min hwalk hlt ⟨hm, hshorter⟩

/-- A walk of up to twice the length is short, or two short ones. -/
theorem double (h : ShortWalk R (2 * n) a b) :
    ShortWalk R n a b ∨ ∃ c, ShortWalk R n a c ∧ ShortWalk R n c b := by
  obtain ⟨m, hpos, hle, hwalk⟩ := h
  by_cases hshort : m ≤ n
  · exact .inl ⟨m, hpos, hshort, hwalk⟩
  · rw [show m = n + (m - n) by omega] at hwalk
    obtain ⟨c, hfront, hback⟩ := hwalk.split
    exact .inr ⟨c, ⟨n, by omega, le_rfl, hfront⟩, ⟨m - n, by omega, by omega, hback⟩⟩

end ShortWalk

/-! ## What is reached along few edges -/

namespace Listing

/-- The pairs that are joined by a path of at least one and at most `n` edges. -/
def Reach (L : Listing α) (n : Nat) : Listing α
  | .implies, a, b => ShortWalk L.Grants n a b
  | .impliedBy, a, b => ShortWalk L.Grants n b a
  | .subrights, a, b => ShortWalk L.Parent n a b
  | .subrightOf, a, b => ShortWalk L.Parent n b a

variable {L : Listing α} {r : Relation} {a b : α} {m n : Nat}

theorem Reach.mono (h : L.Reach m r a b) (hmn : m ≤ n) : L.Reach n r a b := by
  cases r <;> exact ShortWalk.mono h hmn

theorem reach_mirror : L.Reach n r.mirror b a ↔ L.Reach n r a b := by
  cases r <;> exact Iff.rfl

/-- What is reached along up to twice as many edges is reached through a name in between. -/
theorem reach_double (h : L.Reach (2 * n) r a b) :
    L.Reach n r a b ∨ ∃ c, L.Reach n r a c ∧ L.Reach n r c b := by
  cases r with
  | implies => exact ShortWalk.double h
  | subrights => exact ShortWalk.double h
  | impliedBy =>
    refine (ShortWalk.double h).imp_right ?_
    rintro ⟨c, hbc, hca⟩
    exact ⟨c, hca, hbc⟩
  | subrightOf =>
    refine (ShortWalk.double h).imp_right ?_
    rintro ⟨c, hbc, hca⟩
    exact ⟨c, hca, hbc⟩

/-- Among finitely many names every path is as short as there are names. -/
theorem reach_of_path {names : List α} (hkey : ∀ r a b, L r a b → a ∈ names)
    (hknown : ∀ r a b, L r a b → b ∈ names) (h : L.Path r a b) : L.Reach names.length r a b := by
  have hgrants : ∀ a b, L.Grants a b → b ∈ names := by
    rintro a b (h | h | h | h)
    · exact hknown _ _ _ h
    · exact hknown _ _ _ h
    · exact hkey _ _ _ h
    · exact hkey _ _ _ h
  have hparent : ∀ a b, L.Parent a b → b ∈ names :=
    fun a b h => hgrants a b (grants_of_parent h)
  cases r with
  | implies => exact ShortWalk.of_transGen hgrants h
  | impliedBy => exact ShortWalk.of_transGen hgrants h
  | subrights => exact ShortWalk.of_transGen hparent h
  | subrightOf => exact ShortWalk.of_transGen hparent h

end Listing

end Clearance
