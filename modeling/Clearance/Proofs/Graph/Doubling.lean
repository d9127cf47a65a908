import Clearance.Proofs.Graph.Renaming
import Clearance.Proofs.Graph.Walks
import Mathlib.Data.Nat.Log
import Mathlib.Logic.Function.Iterate

/-! How many passes it takes.

After one pass every declared edge is listed at one of its ends, after two at both
(`lists_two_passes`). From then on each pass doubles the number of edges that are
bridged, whatever the order of the visits: a name in the middle of a path passes what lies
behind it on to what lies before it (`lists_pass_of_reach`). No path needs more edges than
there are names, so that the logarithm of their number bounds the passes
(`exists_first_unchanged`). -/
namespace Clearance.Graph

variable {α : Type} [Ord α] [BEq α] {g h : Graph α} {r : Relation} {a b : α}

/-- Settling counts passes up to and including the first that changes nothing. -/
theorem settle_of_first {k fuel : Nat}
    (hchange : ∀ j < k, (pass^[j + 1] g == pass^[j] g) = false)
    (hstop : (pass^[k + 1] g == pass^[k] g) = true) (hfuel : k < fuel) :
    g.settle fuel = (pass^[k + 1] g, k + 1) := by
  induction k generalizing g fuel with
  | zero =>
    obtain ⟨fuel, rfl⟩ : ∃ n, fuel = n + 1 := ⟨fuel - 1, by omega⟩
    have hstop : (g.pass == g) = true := hstop
    simp only [settle, hstop, if_true]
    rfl
  | succ k ih =>
    obtain ⟨fuel, rfl⟩ : ∃ n, fuel = n + 1 := ⟨fuel - 1, by omega⟩
    have hfirst : (g.pass == g) = false := hchange 0 k.succ_pos
    -- the passes over the graph after one pass are those over the graph itself, one behind
    have hrest := ih (g := g.pass) (fun j hj => hchange (j + 1) (by omega)) hstop
      (Nat.lt_of_succ_lt_succ hfuel)
    simp only [settle, hfirst, Bool.false_eq_true, if_false, hrest]
    rfl

section Lawful

variable [LawfulBEq α] [Std.LawfulEqOrd α]

/-! ## Both ends of an edge -/

theorem lists_pass (hlist : g.Lists r a b) : g.pass.Lists r a b :=
  lists_foldl_visit hlist

/-- A pass shows what is listed at one end at the other end as well. -/
theorem lists_pass_of_mirror (hg : g.WellFormed) (hlist : g.Lists r.mirror b a) :
    g.pass.Lists r a b :=
  lists_pass_of_passes hg ⟨Listing.receives_of_mirror hlist, .inl rfl⟩

/-- After one pass an edge is listed at one of its ends, in the relation it stands for. -/
theorem lists_one_pass (hg : g.WellFormed) (hedge : g.Lists.Reach 1 r a b) :
    g.pass.Lists r a b ∨ g.pass.Lists r.mirror b a := by
  have hgrants : ∀ {a b}, g.Lists.Grants a b →
      g.pass.Lists .implies a b ∨ g.pass.Lists .impliedBy b a := by
    rintro a b (hi | hs | hib | hso)
    · exact .inl (lists_pass hi)
    · exact .inr (lists_pass_of_passes hg ⟨.inr hs, .inl rfl⟩)
    · exact .inr (lists_pass hib)
    · exact .inl (lists_pass_of_passes hg ⟨.inr hso, .inl rfl⟩)
  have hparent : ∀ {a b}, g.Lists.Parent a b →
      g.pass.Lists .subrights a b ∨ g.pass.Lists .subrightOf b a :=
    fun hp => hp.imp lists_pass lists_pass
  cases r with
  | implies => exact hgrants (ShortWalk.edge hedge)
  | impliedBy => exact (hgrants (ShortWalk.edge hedge)).symm
  | subrights => exact hparent (ShortWalk.edge hedge)
  | subrightOf => exact (hparent (ShortWalk.edge hedge)).symm

section Iterated

variable [Std.TransOrd α]

theorem stage_iterate (hg : g.WellFormed) (k : Nat) : g.Stage (pass^[k] g) := by
  induction k with
  | zero => exact Stage.refl hg
  | succ k ih =>
    rw [Function.iterate_succ_apply']
    exact ih.pass

/-- After two passes an edge is listed at both of its ends. -/
theorem lists_two_passes (hg : g.WellFormed) (hedge : g.Lists.Reach 1 r a b) :
    (pass^[2] g).Lists r a b := by
  rcases lists_one_pass hg hedge with hlist | hlist
  · exact lists_pass hlist
  · exact lists_pass_of_mirror (Stage.refl hg).pass.wellFormed hlist

end Iterated

/-! ## Doubling -/

/-- **Doubling.** Where all paths of up to `n` edges are listed, one pass lists all paths
of up to twice as many. -/
theorem lists_pass_of_reach (hs : g.Stage h) {n : Nat}
    (hreach : ∀ r a b, g.Lists.Reach n r a b → h.Lists r a b)
    (hlong : g.Lists.Reach (2 * n) r a b) : h.pass.Lists r a b := by
  rcases Listing.reach_double hlong with hshort | ⟨c, hac, hcb⟩
  · exact lists_pass (hreach r a b hshort)
  · have hback : h.Lists r.mirror c a := hreach _ _ _ (Listing.reach_mirror.mpr hac)
    exact lists_pass_of_passes hs.wellFormed
      ⟨Listing.receives_of_mirror hback, .inr (hreach r c b hcb)⟩

variable [Std.TransOrd α]

theorem lists_of_reach (hg : g.WellFormed) (k : Nat) {r : Relation} {a b : α}
    (hreach : g.Lists.Reach (2 ^ k) r a b) : (pass^[k + 2] g).Lists r a b := by
  induction k generalizing r a b with
  | zero => exact lists_two_passes hg hreach
  | succ k ih =>
    rw [Nat.pow_succ, Nat.mul_comm] at hreach
    rw [Function.iterate_succ_apply']
    exact lists_pass_of_reach (stage_iterate hg (k + 2)) (fun r a b => ih) hreach

/-! ## The first pass that changes nothing -/

/-- A pass changes nothing exactly when nothing is left to pass on. -/
theorem pass_eq_iff_closed (hg : g.WellFormed) : g.pass = g ↔ g.Lists.Closed := by
  refine ⟨closed_of_pass_eq hg, fun hclosed => ?_⟩
  have hpass := (Stage.refl hg).pass
  refine eq_of_lists_iff hpass.wellFormed hg hpass.names fun r a b => ?_
  exact ⟨fun hlist => hclosed.lists_of_path (hpass.sound r a b hlist), lists_pass⟩

/-- Once the passes are as many as the logarithm of the number of names, and two, nothing
is left to pass on. -/
theorem closed_iterate (hg : g.WellFormed) :
    (pass^[Nat.clog 2 g.length + 2] g).Lists.Closed := by
  have hs := stage_iterate hg (Nat.clog 2 g.length + 2)
  refine Listing.closed_of_iff_path (L := g.Lists) fun r a b => ⟨hs.sound r a b, fun hpath => ?_⟩
  refine lists_of_reach hg _ (Listing.Reach.mono ?_ (Nat.le_pow_clog Nat.one_lt_two g.length))
  have hreach := Listing.reach_of_path (fun _ _ _ => mem_names_of_lists) hg.known hpath
  rwa [names, List.length_map] at hreach

/-- **How many passes change something.** No more than the logarithm of the number of
names, and two; the one after them changes nothing. -/
theorem exists_first_unchanged (hg : g.WellFormed) :
    ∃ k ≤ Nat.clog 2 g.length + 2, pass^[k + 1] g = pass^[k] g ∧
      ∀ j < k, pass^[j + 1] g ≠ pass^[j] g := by
  classical
  have hlast : pass^[Nat.clog 2 g.length + 2 + 1] g = pass^[Nat.clog 2 g.length + 2] g := by
    rw [Function.iterate_succ_apply']
    exact (pass_eq_iff_closed (stage_iterate hg _).wellFormed).mpr (closed_iterate hg)
  have hex : ∃ k, pass^[k + 1] g = pass^[k] g := ⟨_, hlast⟩
  exact ⟨Nat.find hex, Nat.find_min' hex hlast, Nat.find_spec hex, fun j hj => Nat.find_min hex hj⟩

end Lawful

/-! ## Names of any kind -/

/-- The logarithm and two stay below the passes that closing allows. -/
theorem clog_lt_fuel {n : Nat} (hn : 0 < n) : Nat.clog 2 n + 2 < 4 * n * n + 1 := by
  have hpow : n - 1 < 2 ^ (n - 1) := Nat.lt_two_pow_self
  have hlog : Nat.clog 2 n ≤ n - 1 := Nat.clog_le_of_le_pow (by omega)
  have hsquare : n ≤ n * n := Nat.le_mul_self n
  rw [Nat.mul_assoc]
  omega

section Renamed

variable {β : Type} [Ord β] [BEq β] {f : α → β} {S : α → Prop}

theorem rename_iterate (hf : Faithful f S) (hw : g.Within S) (k : Nat) :
    (pass^[k] g).Within S ∧ (pass^[k] g).rename f = pass^[k] (g.rename f) := by
  induction k with
  | zero => exact ⟨hw, rfl⟩
  | succ k ih =>
    obtain ⟨hpass, heq⟩ := rename_pass hf ih.1
    rw [Function.iterate_succ_apply', Function.iterate_succ_apply']
    exact ⟨hpass, heq.trans (congrArg pass ih.2)⟩

variable [LawfulBEq β] [Std.TransOrd β] [Std.LawfulEqOrd β]

/-- **Closing, pass by pass.** A graph that is well-formed up to renaming is closed by
passes of which the last is the first that changes nothing. -/
theorem close_eq_iterate (hf : Faithful f S) (hw : g.Within S) (hg : (g.rename f).WellFormed) :
    ∃ k ≤ Nat.clog 2 g.length + 2, (pass^[k + 1] g == pass^[k] g) = true ∧
      (∀ j < k, (pass^[j + 1] g == pass^[j] g) = false) ∧ g.close = (pass^[k + 1] g, k + 1) := by
  have hbeq : ∀ j, (pass^[j + 1] g == pass^[j] g) =
      (pass^[j + 1] (g.rename f) == pass^[j] (g.rename f)) := by
    intro j
    obtain ⟨hnext, hnexteq⟩ := rename_iterate hf hw (j + 1)
    obtain ⟨hthis, hthiseq⟩ := rename_iterate hf hw j
    rw [← hnexteq, ← hthiseq, beq_rename hf hnext hthis]
  have hlength : (g.rename f).length = g.length := List.length_map ..
  obtain ⟨k, hle, hstop, hchange⟩ := exists_first_unchanged hg
  have hstop' : (pass^[k + 1] g == pass^[k] g) = true := (hbeq k).trans (beq_iff_eq.mpr hstop)
  have hchange' : ∀ j < k, (pass^[j + 1] g == pass^[j] g) = false :=
    fun j hj => (hbeq j).trans (beq_eq_false_iff_ne.mpr (hchange j hj))
  rw [hlength] at hle
  refine ⟨k, hle, hstop', hchange', settle_of_first hchange' hstop' ?_⟩
  cases g with
  | nil =>
    -- without names the first pass changes nothing
    by_contra hfuel
    cases hchange' 0 (Nat.pos_of_ne_zero (by simpa using hfuel))
  | cons e rest => exact hle.trans_lt (clog_lt_fuel (List.length_pos_of_mem List.mem_cons_self))

end Renamed

end Clearance.Graph
