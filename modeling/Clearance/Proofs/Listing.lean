import Clearance.Vocabulary
import Mathlib.Logic.Relation
import Mathlib.Tactic.Common

/-! Who lists whom under which relation, and the paths that follow from it.

A listing is what a table of credentials says, without the order in which it says
it: `L r a b` when `a` lists `b` under `r`. A path of grants goes from a
credential to one that it implies, a path of parents from a parent to its
children. `Path` is the listing that closing a table has to arrive at: it holds
every pair that is joined by a path, seen from both ends. -/
namespace Clearance

/-- The relation as the other side sees it. -/
def Relation.mirror : Relation → Relation
  | implies => impliedBy
  | impliedBy => implies
  | subrights => subrightOf
  | subrightOf => subrights

/-- `L r a b` says that `a` lists `b` under the relation `r`. -/
abbrev Listing (α : Type) :=
  Relation → α → α → Prop

namespace Listing

variable {α : Type}

/-- An edge from `a` to `b`: whoever holds `a` may do what `b` allows. It may be
declared from either end, and a parent grants its children. -/
def Grants (L : Listing α) (a b : α) : Prop :=
  L .implies a b ∨ L .subrights a b ∨ L .impliedBy b a ∨ L .subrightOf b a

/-- An edge from a parent to a child, declared from either end. -/
def Parent (L : Listing α) (a b : α) : Prop :=
  L .subrights a b ∨ L .subrightOf b a

/-- The pairs that are joined by a path of at least one edge. -/
def Path (L : Listing α) : Listing α
  | .implies, a, b => Relation.TransGen L.Grants a b
  | .impliedBy, a, b => Relation.TransGen L.Grants b a
  | .subrights, a, b => Relation.TransGen L.Parent a b
  | .subrightOf, a, b => Relation.TransGen L.Parent b a

theorem grants_of_parent {L : Listing α} {a b : α} (h : L.Parent a b) : L.Grants a b := by
  rcases h with h | h
  · exact .inr (.inl h)
  · exact .inr (.inr (.inr h))

/-- A path of parents is a path of grants. -/
theorem grantsPath_of_parentPath {L : Listing α} {a b : α}
    (h : Relation.TransGen L.Parent a b) : Relation.TransGen L.Grants a b :=
  Relation.TransGen.mono (fun _ _ => grants_of_parent) a b h

/-- What is listed is joined by a path of one edge. -/
theorem path_of_lists {L : Listing α} {r : Relation} {a b : α} (h : L r a b) :
    L.Path r a b := by
  cases r with
  | implies => exact .single (.inl h)
  | impliedBy => exact .single (.inr (.inr (.inl h)))
  | subrights => exact .single (.inl h)
  | subrightOf => exact .single (.inr h)

theorem path_mirror {L : Listing α} {r : Relation} {a b : α} :
    L.Path r.mirror b a ↔ L.Path r a b := by
  cases r <;> exact Iff.rfl

/-- Listings that hold of the same pairs have the same paths. -/
theorem path_congr {L M : Listing α} (h : ∀ r a b, L r a b ↔ M r a b) {r : Relation} {a b : α} :
    L.Path r a b ↔ M.Path r a b := by
  have heq : L = M := by
    funext r a b
    exact propext (h r a b)
  rw [heq]

/-! ## What a visit passes on -/

/-- The names whose list under a relation grows when `x` is visited. -/
def Receives (L : Listing α) (x : α) : Relation → α → Prop
  | .implies, a => L .impliedBy x a ∨ L .subrightOf x a
  | .impliedBy, a => L .implies x a ∨ L .subrights x a
  | .subrights, a => L .subrightOf x a
  | .subrightOf, a => L .subrights x a

/-- A visit to `x` puts `b` into a list of `a`: `x` itself, or what `x` lists. -/
def Passes (L : Listing α) (x : α) (r : Relation) (a b : α) : Prop :=
  L.Receives x r a ∧ (b = x ∨ L r x b)

theorem Receives.mono {L M : Listing α} (h : ∀ r a b, L r a b → M r a b) {x : α} {r : Relation}
    {a : α} (hr : L.Receives x r a) : M.Receives x r a := by
  cases r with
  | implies => exact hr.imp (h _ _ _) (h _ _ _)
  | impliedBy => exact hr.imp (h _ _ _) (h _ _ _)
  | subrights => exact h _ _ _ hr
  | subrightOf => exact h _ _ _ hr

theorem Passes.mono {L M : Listing α} (h : ∀ r a b, L r a b → M r a b) {x : α} {r : Relation}
    {a b : α} (hp : L.Passes x r a b) : M.Passes x r a b :=
  ⟨hp.1.mono h, hp.2.imp_right (h r x b)⟩

/-- Whoever receives from `x` is joined to `x`. -/
theorem path_of_receives {L : Listing α} {x : α} {r : Relation} {a : α}
    (h : L.Path.Receives x r a) : L.Path r a x := by
  cases r with
  | implies =>
    rcases h with h | h
    · exact h
    · exact grantsPath_of_parentPath h
  | impliedBy =>
    rcases h with h | h
    · exact h
    · exact grantsPath_of_parentPath h
  | subrights => exact h
  | subrightOf => exact h

theorem path_trans {L : Listing α} {r : Relation} {a b c : α} (h : L.Path r a b)
    (h' : L.Path r b c) : L.Path r a c := by
  cases r with
  | implies => exact Relation.TransGen.trans h h'
  | impliedBy => exact Relation.TransGen.trans h' h
  | subrights => exact Relation.TransGen.trans h h'
  | subrightOf => exact Relation.TransGen.trans h' h

/-- Whoever is seen from `x` under the mirrored relation receives from `x`. -/
theorem receives_of_mirror {L : Listing α} {x : α} {r : Relation} {a : α}
    (h : L r.mirror x a) : L.Receives x r a := by
  cases r with
  | implies => exact .inl h
  | impliedBy => exact .inl h
  | subrights => exact h
  | subrightOf => exact h

/-- **Soundness of one visit.** What is passed on along paths is joined by a path. -/
theorem path_of_passes {L : Listing α} {x : α} {r : Relation} {a b : α}
    (h : L.Path.Passes x r a b) : L.Path r a b := by
  obtain ⟨hrec, rfl | hlist⟩ := h
  · exact path_of_receives hrec
  · exact path_trans (path_of_receives hrec) hlist

/-! ## Closed listings -/

/-- No visit has anything left to pass on. -/
def Closed (L : Listing α) : Prop :=
  ∀ x r a b, L.Passes x r a b → L r a b

namespace Closed

variable {L : Listing α}

/-- What `a` implies is implied by `a`, and the other way round. -/
theorem impliedBy_iff (h : L.Closed) {a b : α} : L .impliedBy b a ↔ L .implies a b :=
  ⟨fun hb => h b .implies a b ⟨.inl hb, .inl rfl⟩,
    fun ha => h a .impliedBy b a ⟨.inl ha, .inl rfl⟩⟩

/-- The children of `a` have `a` as a parent, and the other way round. -/
theorem subrightOf_iff (h : L.Closed) {a b : α} : L .subrightOf b a ↔ L .subrights a b :=
  ⟨fun hb => h b .subrights a b ⟨hb, .inl rfl⟩, fun ha => h a .subrightOf b a ⟨ha, .inl rfl⟩⟩

theorem implies_of_subrights (h : L.Closed) {a b : α} (hs : L .subrights a b) :
    L .implies a b :=
  -- the parent passes itself on to its child as one that implies it
  h.impliedBy_iff.mp (h a .impliedBy b a ⟨.inr hs, .inl rfl⟩)

theorem implies_trans (h : L.Closed) {a b c : α} (hab : L .implies a b)
    (hbc : L .implies b c) : L .implies a c :=
  h b .implies a c ⟨.inl (h.impliedBy_iff.mpr hab), .inr hbc⟩

theorem subrights_trans (h : L.Closed) {a b c : α} (hab : L .subrights a b)
    (hbc : L .subrights b c) : L .subrights a c :=
  h b .subrights a c ⟨h.subrightOf_iff.mpr hab, .inr hbc⟩

theorem implies_of_grants (h : L.Closed) {a b : α} (hg : L.Grants a b) : L .implies a b := by
  rcases hg with hi | hs | hib | hso
  · exact hi
  · exact h.implies_of_subrights hs
  · exact h.impliedBy_iff.mp hib
  · exact h.implies_of_subrights (h.subrightOf_iff.mp hso)

theorem implies_of_path (h : L.Closed) {a b : α} (hp : Relation.TransGen L.Grants a b) :
    L .implies a b := by
  induction hp with
  | single hg => exact h.implies_of_grants hg
  | tail _ hg ih => exact h.implies_trans ih (h.implies_of_grants hg)

theorem subrights_of_path (h : L.Closed) {a b : α} (hp : Relation.TransGen L.Parent a b) :
    L .subrights a b := by
  have hone : ∀ {a b : α}, L.Parent a b → L .subrights a b := by
    rintro a b (hs | hso)
    · exact hs
    · exact h.subrightOf_iff.mp hso
  induction hp with
  | single hs => exact hone hs
  | tail _ hs ih => exact h.subrights_trans ih (hone hs)

/-- **Completeness.** A closed listing holds every pair that is joined by its own paths. -/
theorem lists_of_path (h : L.Closed) {r : Relation} {a b : α} (hp : L.Path r a b) :
    L r a b := by
  cases r with
  | implies => exact h.implies_of_path hp
  | impliedBy => exact h.impliedBy_iff.mpr (h.implies_of_path hp)
  | subrights => exact h.subrights_of_path hp
  | subrightOf => exact h.subrightOf_iff.mpr (h.subrights_of_path hp)

end Closed

theorem Grants.mono {L M : Listing α} (h : ∀ r a b, L r a b → M r a b) {a b : α}
    (hg : L.Grants a b) : M.Grants a b := by
  rcases hg with hi | hs | hib | hso
  · exact .inl (h _ _ _ hi)
  · exact .inr (.inl (h _ _ _ hs))
  · exact .inr (.inr (.inl (h _ _ _ hib)))
  · exact .inr (.inr (.inr (h _ _ _ hso)))

theorem Parent.mono {L M : Listing α} (h : ∀ r a b, L r a b → M r a b) {a b : α}
    (hp : L.Parent a b) : M.Parent a b :=
  hp.imp (h _ _ _) (h _ _ _)

theorem path_mono {L M : Listing α} (h : ∀ r a b, L r a b → M r a b) {r : Relation} {a b : α}
    (hp : L.Path r a b) : M.Path r a b := by
  cases r with
  | implies => exact Relation.TransGen.mono (fun _ _ => Grants.mono h) _ _ hp
  | impliedBy => exact Relation.TransGen.mono (fun _ _ => Grants.mono h) _ _ hp
  | subrights => exact Relation.TransGen.mono (fun _ _ => Parent.mono h) _ _ hp
  | subrightOf => exact Relation.TransGen.mono (fun _ _ => Parent.mono h) _ _ hp

/-- A listing that holds of the pairs that are joined by some paths is closed. -/
theorem closed_of_iff_path {L M : Listing α} (h : ∀ r a b, M r a b ↔ L.Path r a b) :
    M.Closed := by
  intro x r a b hpass
  exact (h r a b).mpr (path_of_passes (hpass.mono fun r a b => (h r a b).mp))

theorem closed_congr {L M : Listing α} (h : ∀ r a b, L r a b ↔ M r a b) :
    L.Closed ↔ M.Closed := by
  have heq : L = M := by
    funext r a b
    exact propext (h r a b)
  rw [heq]

/-- A closed listing between a listing and its paths holds of exactly the joined pairs. -/
theorem iff_path {L M : Listing α} (hclosed : M.Closed) (hle : ∀ r a b, L r a b → M r a b)
    (hsound : ∀ r a b, M r a b → L.Path r a b) {r : Relation} {a b : α} :
    M r a b ↔ L.Path r a b :=
  ⟨hsound r a b, fun hp => hclosed.lists_of_path (path_mono hle hp)⟩

end Listing

end Clearance
