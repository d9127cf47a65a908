import Clearance.Proofs.Ascending
import Clearance.Proofs.Listing

/-! What one pass over a graph adds.

A visit to a name only ever adds to the lists of the ones it is related to, and
what it adds is said by `Listing.Passes`: the name itself and what it lists, taken
before the visit. Everything about passes follows from `lists_visit`. -/
namespace Clearance

namespace Graph

variable {α : Type}

@[simp] theorem names_cons (e : α × Links α) (g : Graph α) :
    names (e :: g) = e.1 :: names g := rfl

/-- Extending the lists of several names leaves the names as they are. -/
theorem names_foldl {step : Graph α → α → Graph α} (h : ∀ g t, (step g t).names = g.names)
    (targets : List α) (g : Graph α) : (targets.foldl step g).names = g.names := by
  induction targets generalizing g with
  | nil => rfl
  | cons t rest ih => rw [List.foldl_cons, ih, h]

/-! ## The relations of a name -/

variable [BEq α]

/-- What the lists of a graph say. -/
def Lists (g : Graph α) : Listing α :=
  fun r a b => b ∈ (g.linksOf a).get r

/-- Steps that each add something to the lists, taken one after the other. -/
theorem lists_foldl {step : Graph α → α → Graph α} {P : α → Relation → α → α → Prop}
    (hnames : ∀ g t, (step g t).names = g.names)
    (hstep : ∀ g t r a b, (step g t).Lists r a b ↔ g.Lists r a b ∨ (a ∈ g.names ∧ P t r a b))
    (targets : List α) (g : Graph α) (r : Relation) (a b : α) :
    (targets.foldl step g).Lists r a b ↔
      g.Lists r a b ∨ (a ∈ g.names ∧ ∃ t ∈ targets, P t r a b) := by
  induction targets generalizing g with
  | nil => simp
  | cons t rest ih =>
    rw [List.foldl_cons, ih, hstep, hnames]
    simp only [List.mem_cons, exists_eq_or_imp]
    tauto

section Lookup

variable [LawfulBEq α]

theorem linksOf_cons_self (a : α) (links : Links α) (g : Graph α) :
    linksOf ((a, links) :: g) a = links := by
  simp [linksOf]

theorem linksOf_cons_of_ne {a name : α} (h : a ≠ name) (links : Links α) (g : Graph α) :
    linksOf ((name, links) :: g) a = g.linksOf a := by
  have hne : (a == name) = false := beq_eq_false_iff_ne.mpr h
  simp [linksOf, List.lookup_cons, hne]

theorem linksOf_of_not_mem {g : Graph α} {a : α} (h : a ∉ g.names) :
    g.linksOf a = Links.none := by
  induction g with
  | nil => rfl
  | cons e rest ih =>
    obtain ⟨name, links⟩ := e
    simp only [names_cons, List.mem_cons, not_or] at h
    rw [linksOf_cons_of_ne h.1, ih h.2]

/-- Only a name of the graph lists anything. -/
theorem mem_names_of_lists {g : Graph α} {r : Relation} {a b : α} (h : g.Lists r a b) :
    a ∈ g.names := by
  by_contra hmem
  rw [Lists, linksOf_of_not_mem hmem] at h
  cases r <;> simp [Links.none, Links.get] at h

theorem linksOf_of_mem {g : Graph α} (h : g.names.Nodup) {e : α × Links α} (he : e ∈ g) :
    g.linksOf e.1 = e.2 := by
  induction g with
  | nil => simp at he
  | cons e' rest ih =>
    obtain ⟨name, links⟩ := e'
    rw [names_cons, List.nodup_cons] at h
    rcases List.mem_cons.mp he with rfl | hmem
    · exact linksOf_cons_self name links rest
    · have hne : e.1 ≠ name := by
        intro heq
        exact h.1 (List.mem_map.mpr ⟨e, hmem, heq⟩)
      rw [linksOf_cons_of_ne hne, ih h.2 hmem]

/-- When no name is there twice, the entries say what is listed. -/
theorem lists_iff_exists_mem {g : Graph α} (h : g.names.Nodup) {r : Relation} {a b : α} :
    g.Lists r a b ↔ ∃ e ∈ g, e.1 = a ∧ b ∈ e.2.get r := by
  constructor
  · intro hlist
    obtain ⟨e, he, rfl⟩ := List.mem_map.mp (mem_names_of_lists hlist)
    rw [Lists, linksOf_of_mem h he] at hlist
    exact ⟨e, he, rfl, hlist⟩
  · rintro ⟨e, he, rfl, hb⟩
    rw [Lists, linksOf_of_mem h he]
    exact hb

end Lookup

/-! ## Extending one list -/

variable [Ord α]

@[simp] theorem names_extend (g : Graph α) (t : α) (r : Relation) (added : List α) :
    (g.extend t r added).names = g.names := by
  induction g with
  | nil => rfl
  | cons e rest ih =>
    obtain ⟨name, links⟩ := e
    simp only [extend]
    split
    · rfl
    · simp [ih]

@[simp] theorem names_foldl_extend (targets added : List α) (r : Relation) (g : Graph α) :
    (targets.foldl (fun g t => g.extend t r added) g).names = g.names :=
  names_foldl (fun g t => names_extend g t r added) targets g

@[simp] theorem names_foldl_extend_extend (targets added added' : List α) (r r' : Relation)
    (g : Graph α) :
    (targets.foldl (fun g t => (g.extend t r added).extend t r' added') g).names = g.names :=
  names_foldl (fun g t => by rw [names_extend, names_extend]) targets g

@[simp] theorem names_visit (g : Graph α) (x : α) : (g.visit x).names = g.names := by
  simp [visit]

@[simp] theorem names_pass (g : Graph α) : g.pass.names = g.names :=
  names_foldl names_visit g.names g

variable [LawfulBEq α]

theorem linksOf_extend_self {g : Graph α} {t : α} (h : t ∈ g.names) (r : Relation)
    (added : List α) :
    (g.extend t r added).linksOf t =
      (g.linksOf t).set (Ascending.union ((g.linksOf t).get r) added) r := by
  induction g with
  | nil => simp [names] at h
  | cons e rest ih =>
    obtain ⟨name, links⟩ := e
    by_cases hname : name = t
    · subst hname
      simp [extend, linksOf_cons_self]
    · have hrest : t ∈ names rest := by
        rcases List.mem_cons.mp h with heq | hmem
        · exact absurd heq.symm hname
        · exact hmem
      simp only [extend, beq_iff_eq, hname, if_false]
      rw [linksOf_cons_of_ne (Ne.symm hname), linksOf_cons_of_ne (Ne.symm hname), ih hrest]

theorem linksOf_extend_of_ne {a t : α} (h : a ≠ t) (g : Graph α) (r : Relation)
    (added : List α) : (g.extend t r added).linksOf a = g.linksOf a := by
  induction g with
  | nil => rfl
  | cons e rest ih =>
    obtain ⟨name, links⟩ := e
    simp only [extend]
    split
    · rename_i heq
      have hname : name = t := eq_of_beq heq
      rw [linksOf_cons_of_ne (hname ▸ h), linksOf_cons_of_ne (hname ▸ h)]
    · by_cases hname : a = name
      · subst hname
        rw [linksOf_cons_self, linksOf_cons_self]
      · rw [linksOf_cons_of_ne hname, linksOf_cons_of_ne hname, ih]

/-! ## What is listed afterwards -/

variable [Std.LawfulEqOrd α]

/-- Extending a list adds the names to it and to nothing else. -/
theorem lists_extend {g : Graph α} {t : α} {s r : Relation} {added : List α} {a b : α} :
    (g.extend t s added).Lists r a b ↔
      g.Lists r a b ∨ (a ∈ g.names ∧ a = t ∧ r = s ∧ b ∈ added) := by
  unfold Lists
  by_cases ht : a = t
  · subst ht
    by_cases hmem : a ∈ g.names
    · rw [linksOf_extend_self hmem]
      by_cases hr : r = s
      · subst hr
        simp [Ascending.mem_union, hmem]
      · simp [Links.get_set_of_ne _ _ hr, hr]
    · have hmem' : a ∉ (g.extend a s added).names := by simpa using hmem
      simp [linksOf_of_not_mem hmem, linksOf_of_not_mem hmem', hmem]
  · simp [linksOf_extend_of_ne ht, ht]

/-- One list of each target is extended. -/
theorem lists_foldl_extend {targets added : List α} {g : Graph α} {s r : Relation} {a b : α} :
    (targets.foldl (fun g t => g.extend t s added) g).Lists r a b ↔
      g.Lists r a b ∨ (a ∈ g.names ∧ a ∈ targets ∧ r = s ∧ b ∈ added) := by
  rw [lists_foldl (P := fun t r a b => a = t ∧ r = s ∧ b ∈ added) (by simp)
    (fun g t r a b => lists_extend)]
  grind

/-- Two lists of each target are extended. -/
theorem lists_foldl_extend_extend {targets added added' : List α} {g : Graph α}
    {s s' r : Relation} {a b : α} :
    (targets.foldl (fun g t => (g.extend t s added).extend t s' added') g).Lists r a b ↔
      g.Lists r a b ∨ (a ∈ g.names ∧ a ∈ targets ∧
        (r = s ∧ b ∈ added ∨ r = s' ∧ b ∈ added')) := by
  rw [lists_foldl
    (P := fun t r a b => a = t ∧ (r = s ∧ b ∈ added ∨ r = s' ∧ b ∈ added')) (by simp)
    (fun g t r a b => by rw [lists_extend, lists_extend, names_extend]; tauto)]
  grind

/-- **What a visit adds.** -/
theorem lists_visit {g : Graph α} {x : α} {r : Relation} {a b : α} :
    (g.visit x).Lists r a b ↔
      g.Lists r a b ∨ (a ∈ g.names ∧ g.Lists.Passes x r a b) := by
  simp only [visit, lists_foldl_extend_extend, lists_foldl_extend, names_foldl_extend,
    names_foldl_extend_extend, Ascending.mem_insert]
  cases r <;> simp [Listing.Passes, Listing.Receives, Lists, Links.get]
  all_goals tauto

end Graph

end Clearance
