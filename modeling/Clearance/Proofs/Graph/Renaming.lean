import Clearance.Proofs.Graph.Settling

/-! Closing commutes with renaming.

A renaming that keeps order and equality of the names in use commutes with every
step of closing a graph. Graphs with names of any kind are closed by the library;
what is known of graphs of texts is carried over to them by reading each name as
its text. -/
namespace Clearance

variable {α β : Type}

/-- A renaming that keeps the order and the equality of some names. -/
structure Faithful [Ord α] [BEq α] [Ord β] [BEq β] (f : α → β) (S : α → Prop) : Prop where
  compare : ∀ {a b}, S a → S b → compare (f a) (f b) = compare a b
  beq : ∀ {a b}, S a → S b → (f a == f b) = (a == b)

/-! ## Ascending lists -/

namespace Ascending

variable [Ord α] {S : α → Prop}

theorem forall_insert {x : α} {xs : List α} (hx : S x) (h : ∀ y ∈ xs, S y) :
    ∀ y ∈ insert x xs, S y := by
  induction xs with
  | nil => simpa [insert] using hx
  | cons y rest ih =>
    rw [List.forall_mem_cons] at h
    simp only [insert]
    split
    · exact List.forall_mem_cons.mpr ⟨hx, List.forall_mem_cons.mpr h⟩
    · exact List.forall_mem_cons.mpr ⟨hx, h.2⟩
    · exact List.forall_mem_cons.mpr ⟨h.1, ih h.2⟩

theorem forall_union {xs ys : List α} (hx : ∀ y ∈ xs, S y) (hy : ∀ y ∈ ys, S y) :
    ∀ y ∈ union xs ys, S y := by
  fun_induction union xs ys with
  | case1 ys => exact hy
  | case2 x xs => exact hx
  | case3 x xs y ys _ ih =>
    rw [List.forall_mem_cons] at hx
    exact List.forall_mem_cons.mpr ⟨hx.1, ih hx.2 hy⟩
  | case4 x xs y ys _ ih =>
    rw [List.forall_mem_cons] at hx hy
    exact List.forall_mem_cons.mpr ⟨hx.1, ih hx.2 hy.2⟩
  | case5 x xs y ys _ ih =>
    rw [List.forall_mem_cons] at hy
    exact List.forall_mem_cons.mpr ⟨hy.1, ih hx hy.2⟩

variable [BEq α] [Ord β] [BEq β] {f : α → β}

theorem map_insert (hf : Faithful f S) {x : α} {xs : List α} (hx : S x) (h : ∀ y ∈ xs, S y) :
    (insert x xs).map f = insert (f x) (xs.map f) := by
  induction xs with
  | nil => rfl
  | cons y rest ih =>
    rw [List.forall_mem_cons] at h
    simp only [insert, List.map_cons, hf.compare hx h.1]
    split <;> simp [ih h.2]

theorem map_union (hf : Faithful f S) {xs ys : List α} (hx : ∀ y ∈ xs, S y)
    (hy : ∀ y ∈ ys, S y) : (union xs ys).map f = union (xs.map f) (ys.map f) := by
  fun_induction union xs ys with
  | case1 ys => simp [union]
  | case2 x xs => simp [union]
  | case3 x xs y ys hlt ih =>
    rw [List.forall_mem_cons] at hx
    have hcmp := hf.compare hx.1 (hy y List.mem_cons_self)
    simp only [List.map_cons, union, hcmp, hlt, ih hx.2 hy]
  | case4 x xs y ys heq ih =>
    rw [List.forall_mem_cons] at hx hy
    have hcmp := hf.compare hx.1 hy.1
    simp only [List.map_cons, union, hcmp, heq, ih hx.2 hy.2]
  | case5 x xs y ys hgt ih =>
    rw [List.forall_mem_cons] at hy
    have hcmp := hf.compare (hx x List.mem_cons_self) hy.1
    simp only [List.map_cons, union, hcmp, hgt, ih hx hy.2]

end Ascending

/-! ## Relations -/

/-- The relations of a name, every name renamed. -/
def Links.map (f : α → β) (l : Links α) : Links β :=
  ⟨l.implies.map f, l.impliedBy.map f, l.subrights.map f, l.subrightOf.map f⟩

@[simp] theorem Links.get_map (f : α → β) (l : Links α) (r : Relation) :
    (l.map f).get r = (l.get r).map f := by
  cases r <;> rfl

theorem Links.map_set (f : α → β) (l : Links α) (names : List α) (r : Relation) :
    (l.set names r).map f = (l.map f).set (names.map f) r := by
  cases r <;> rfl

/-! ## Graphs -/

namespace Graph

/-- A graph with every name renamed. -/
def rename (f : α → β) (g : Graph α) : Graph β :=
  g.map fun e => (f e.1, e.2.map f)

/-- All names of a graph, and all names that it lists, are of one kind. -/
def Within (S : α → Prop) (g : Graph α) : Prop :=
  ∀ e ∈ g, S e.1 ∧ ∀ r, ∀ b ∈ e.2.get r, S b

theorem names_rename (f : α → β) (g : Graph α) : (g.rename f).names = g.names.map f := by
  simp [rename, names]

variable {S : α → Prop} {g : Graph α}

theorem Within.name (h : g.Within S) {a : α} (ha : a ∈ g.names) : S a := by
  obtain ⟨e, he, rfl⟩ := List.mem_map.mp ha
  exact (h e he).1

/-- A list of steps, each of which commutes with a renaming. -/
theorem rename_foldl {f : α → β} {step : Graph α → α → Graph α} {step' : Graph β → β → Graph β}
    {targets : List α} (hkeep : ∀ k, k.Within S → ∀ t ∈ targets, (step k t).Within S)
    (hstep : ∀ k, k.Within S → ∀ t ∈ targets, (step k t).rename f = step' (k.rename f) (f t))
    (h : g.Within S) :
    (targets.foldl step g).Within S ∧
      (targets.foldl step g).rename f = (targets.map f).foldl step' (g.rename f) := by
  induction targets generalizing g with
  | nil => exact ⟨h, rfl⟩
  | cons t rest ih =>
    rw [List.foldl_cons, List.map_cons, List.foldl_cons, ← hstep g h t List.mem_cons_self]
    exact ih (fun k hk u hu => hkeep k hk u (List.mem_cons_of_mem _ hu))
      (fun k hk u hu => hstep k hk u (List.mem_cons_of_mem _ hu))
      (hkeep g h t List.mem_cons_self)

section Lookup

variable [BEq α]

theorem Within.links (h : g.Within S) (a : α) (r : Relation) : ∀ b ∈ (g.linksOf a).get r, S b := by
  induction g with
  | nil => cases r <;> simp [linksOf, Links.none, Links.get]
  | cons e rest ih =>
    rw [Within, List.forall_mem_cons] at h
    unfold linksOf
    rw [List.lookup_cons]
    split
    · exact h.1.2 r
    · exact ih h.2

theorem Within.extend [Ord α] (h : g.Within S) {added : List α} (hadded : ∀ b ∈ added, S b)
    (t : α) (s : Relation) : (g.extend t s added).Within S := by
  induction g with
  | nil => exact h
  | cons e rest ih =>
    obtain ⟨name, links⟩ := e
    rw [Within, List.forall_mem_cons] at h
    simp only [Graph.extend]
    split
    · refine List.forall_mem_cons.mpr ⟨⟨h.1.1, ?_⟩, h.2⟩
      intro r
      by_cases hr : r = s
      · subst hr
        rw [Links.get_set_self]
        exact Ascending.forall_union (h.1.2 r) hadded
      · rw [Links.get_set_of_ne _ _ hr]
        exact h.1.2 r
    · exact List.forall_mem_cons.mpr ⟨h.1, ih h.2⟩

end Lookup

variable [Ord α] [BEq α] [Ord β] [BEq β] {f : α → β}

theorem linksOf_rename (hf : Faithful f S) (h : g.Within S) {a : α} (ha : S a) :
    (g.rename f).linksOf (f a) = (g.linksOf a).map f := by
  induction g with
  | nil => rfl
  | cons e rest ih =>
    rw [Within, List.forall_mem_cons] at h
    have hrest := ih h.2
    unfold linksOf at hrest ⊢
    rw [rename, List.map_cons, List.lookup_cons, List.lookup_cons, hf.beq ha h.1.1]
    cases a == e.1
    · exact hrest
    · rfl

/-- Where no name is there twice, a name has the relations of its own entry. -/
theorem linksOf_of_mem_faithful [LawfulBEq β] (hf : Faithful f S) (h : g.Within S)
    (hnodup : (g.rename f).names.Nodup) {e : α × Links α} (he : e ∈ g) : g.linksOf e.1 = e.2 := by
  induction g with
  | nil => cases he
  | cons e' rest ih =>
    rw [Within, List.forall_mem_cons] at h
    rw [names_rename, names_cons, List.map_cons, List.nodup_cons, ← names_rename] at hnodup
    unfold linksOf
    rw [List.lookup_cons]
    rcases List.mem_cons.mp he with rfl | hrest
    · have hsame : (e.1 == e.1) = true := by rw [← hf.beq h.1.1 h.1.1, beq_self_eq_true]
      rw [hsame]
      rfl
    · have hother : (e.1 == e'.1) = false := by
        rw [← hf.beq (h.2 e hrest).1 h.1.1, beq_eq_false_iff_ne]
        intro heq
        refine hnodup.1 (heq ▸ ?_)
        rw [names_rename]
        exact List.mem_map_of_mem (List.mem_map_of_mem hrest)
      rw [hother]
      exact ih h.2 hnodup.2 hrest

theorem rename_extend (hf : Faithful f S) (h : g.Within S) {t : α} (ht : S t)
    {added : List α} (hadded : ∀ b ∈ added, S b) (s : Relation) :
    (g.extend t s added).rename f = (g.rename f).extend (f t) s (added.map f) := by
  induction g with
  | nil => rfl
  | cons e rest ih =>
    obtain ⟨name, links⟩ := e
    rw [Within, List.forall_mem_cons] at h
    have hrest := ih h.2
    unfold rename at hrest ⊢
    simp only [Graph.extend, List.map_cons, hf.beq h.1.1 ht]
    split
    · rw [List.map_cons, Links.map_set, Ascending.map_union hf (h.1.2 s) hadded, Links.get_map]
    · rw [List.map_cons, hrest]

theorem rename_foldl_extend (hf : Faithful f S) {targets added : List α}
    (htargets : ∀ t ∈ targets, S t) (hadded : ∀ b ∈ added, S b) (s : Relation)
    (h : g.Within S) :
    (targets.foldl (fun g t => g.extend t s added) g).Within S ∧
      (targets.foldl (fun g t => g.extend t s added) g).rename f =
        (targets.map f).foldl (fun g t => g.extend t s (added.map f)) (g.rename f) :=
  rename_foldl (fun _ hk t _ => hk.extend hadded t s)
    (fun _ hk t ht => rename_extend hf hk (htargets t ht) hadded s) h

theorem rename_foldl_extend_extend (hf : Faithful f S) {targets added added' : List α}
    (htargets : ∀ t ∈ targets, S t) (hadded : ∀ b ∈ added, S b) (hadded' : ∀ b ∈ added', S b)
    (s s' : Relation) (h : g.Within S) :
    (targets.foldl (fun g t => (g.extend t s added).extend t s' added') g).Within S ∧
      (targets.foldl (fun g t => (g.extend t s added).extend t s' added') g).rename f =
        (targets.map f).foldl
          (fun g t => (g.extend t s (added.map f)).extend t s' (added'.map f)) (g.rename f) := by
  refine rename_foldl ?_ ?_ h
  · intro k hk t _
    exact (hk.extend hadded t s).extend hadded' t s'
  · intro k hk t ht
    rw [rename_extend hf (hk.extend hadded t s) (htargets t ht) hadded',
      rename_extend hf hk (htargets t ht) hadded]

theorem rename_visit (hf : Faithful f S) (h : g.Within S) {x : α} (hx : S x) :
    (g.visit x).Within S ∧ (g.visit x).rename f = (g.rename f).visit (f x) := by
  have hl : ∀ r, ∀ b ∈ (g.linksOf x).get r, S b := h.links x
  have hin : ∀ r, ∀ b ∈ Ascending.insert x ((g.linksOf x).get r), S b :=
    fun r => Ascending.forall_insert hx (hl r)
  have hmap : ∀ r, Ascending.insert (f x) (((g.linksOf x).get r).map f) =
      (Ascending.insert x ((g.linksOf x).get r)).map f :=
    fun r => (Ascending.map_insert hf hx (hl r)).symm
  -- what is passed on is read before the first loop, hence the same in all four
  obtain ⟨h1, e1⟩ := rename_foldl_extend hf (hl .impliedBy) (hin .implies) .implies h
  obtain ⟨h2, e2⟩ := rename_foldl_extend hf (hl .implies) (hin .impliedBy) .impliedBy h1
  obtain ⟨h3, e3⟩ := rename_foldl_extend_extend hf (hl .subrights) (hin .subrightOf)
    (hin .impliedBy) .subrightOf .impliedBy h2
  obtain ⟨h4, e4⟩ := rename_foldl_extend_extend hf (hl .subrightOf) (hin .subrights)
    (hin .implies) .subrights .implies h3
  refine ⟨h4, ?_⟩
  rw [e3, e2, e1] at e4
  refine e4.trans ?_
  simp only [← hmap]
  rw [Graph.visit, linksOf_rename hf h hx]
  rfl

theorem rename_pass (hf : Faithful f S) (h : g.Within S) :
    g.pass.Within S ∧ g.pass.rename f = (g.rename f).pass := by
  have hkeep : ∀ k : Graph α, k.Within S → ∀ t ∈ g.names, (k.visit t).Within S :=
    fun k hk t ht => (rename_visit hf hk (h.name ht)).1
  have hstep : ∀ k : Graph α, k.Within S → ∀ t ∈ g.names,
      (k.visit t).rename f = (k.rename f).visit (f t) :=
    fun k hk t ht => (rename_visit hf hk (h.name ht)).2
  rw [Graph.pass, Graph.pass, names_rename]
  exact rename_foldl hkeep hstep h

/-! ## Comparing graphs -/

theorem beq_map (hf : Faithful f S) {xs ys : List α} (hx : ∀ x ∈ xs, S x)
    (hy : ∀ y ∈ ys, S y) : (xs.map f == ys.map f) = (xs == ys) := by
  induction xs generalizing ys with
  | nil => cases ys <;> rfl
  | cons x xs ih =>
    cases ys with
    | nil => rfl
    | cons y ys =>
      rw [List.forall_mem_cons] at hx hy
      rw [List.map_cons, List.map_cons, List.cons_beq_cons, List.cons_beq_cons,
        hf.beq hx.1 hy.1, ih hx.2 hy.2]

theorem beq_rename (hf : Faithful f S) {h : Graph α} (hg : g.Within S) (hh : h.Within S) :
    (g.rename f == h.rename f) = (g == h) := by
  induction g generalizing h with
  | nil => cases h <;> rfl
  | cons e rest ih =>
    cases h with
    | nil => rfl
    | cons e' rest' =>
      rw [Within, List.forall_mem_cons] at hg hh
      have hlinks : (e.2.map f == e'.2.map f) = (e.2 == e'.2) := by
        simp only [Links.beq_eq, Links.get_map, beq_map hf (hg.1.2 _) (hh.1.2 _)]
      have hrest := ih hg.2 hh.2
      unfold rename at hrest ⊢
      rw [List.map_cons, List.map_cons, List.cons_beq_cons, List.cons_beq_cons, hrest]
      exact congrArg (· && _) (congrArg₂ (· && ·) (hf.beq hg.1.1 hh.1.1) hlinks)

theorem rename_settle (hf : Faithful f S) (fuel : Nat) (h : g.Within S) :
    (g.settle fuel).1.Within S ∧
      (g.rename f).settle fuel = ((g.settle fuel).1.rename f, (g.settle fuel).2) := by
  induction fuel generalizing g with
  | zero => exact ⟨h, rfl⟩
  | succ fuel ih =>
    obtain ⟨hpass, heq⟩ := rename_pass hf h
    simp only [Graph.settle]
    rw [← heq, beq_rename hf hpass h]
    split
    · exact ⟨hpass, rfl⟩
    · obtain ⟨hw, hs⟩ := ih hpass
      exact ⟨hw, by rw [hs]⟩

/-- **Closing commutes with renaming**, and takes the same number of passes. -/
theorem rename_close (hf : Faithful f S) (h : g.Within S) :
    g.close.1.Within S ∧ (g.rename f).close = (g.close.1.rename f, g.close.2) := by
  have hlength : (g.rename f).length = g.length := List.length_map ..
  rw [Graph.close, Graph.close, hlength]
  exact rename_settle hf _ h

end Graph

end Clearance
