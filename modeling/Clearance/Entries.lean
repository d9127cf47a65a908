/-! Tables as lists of entries in order of first insertion.

Putting a value under a key that is there replaces the value in its place; a
new key goes to the end. A look-up sees the last value that was put, and the
keys stay free of duplicates. -/
namespace Clearance.Entries

variable {κ α : Type} [BEq κ]

/-- A table after a value is put under a key. -/
def put (key : κ) (v : α) : List (κ × α) → List (κ × α)
  | [] => [(key, v)]
  | e :: rest => if e.1 == key then (e.1, v) :: rest else e :: put key v rest

/-- A table after entries are put one after another. -/
def putAll (table entries : List (κ × α)) : List (κ × α) :=
  entries.foldl (fun table e => put e.1 e.2 table) table

/-- A table without the entry of a key. -/
def erase (key : κ) (table : List (κ × α)) : List (κ × α) :=
  table.filter fun e => e.1 != key

/-- The keys in order. -/
def keys {κ α : Type} (table : List (κ × α)) : List κ :=
  table.map Prod.fst

variable [LawfulBEq κ]

theorem lookup_put_self (key : κ) (v : α) (table : List (κ × α)) :
    (put key v table).lookup key = some v := by
  induction table with
  | nil => simp [put]
  | cons e rest ih =>
    obtain ⟨k, w⟩ := e
    by_cases h : k = key
    · simp [put, h]
    · have hne : (key == k) = false := beq_eq_false_iff_ne.mpr (Ne.symm h)
      simp [put, h, List.lookup_cons, hne, ih]

theorem lookup_put_of_ne {key other : κ} (h : other ≠ key) (v : α) (table : List (κ × α)) :
    (put key v table).lookup other = table.lookup other := by
  have hne : (other == key) = false := beq_eq_false_iff_ne.mpr h
  induction table with
  | nil => simp [put, List.lookup_cons, hne]
  | cons e rest ih =>
    obtain ⟨k, w⟩ := e
    by_cases hk : k = key
    · subst hk
      simp [put, List.lookup_cons, hne]
    · simp only [put, beq_iff_eq, hk, if_false, List.lookup_cons]
      split <;> simp [ih]

theorem keys_put_of_mem {key : κ} {table : List (κ × α)} (h : key ∈ keys table) (v : α) :
    keys (put key v table) = keys table := by
  induction table with
  | nil => simp [keys] at h
  | cons e rest ih =>
    obtain ⟨k, w⟩ := e
    by_cases hk : k = key
    · simp [put, keys, hk]
    · have hrest : key ∈ keys rest := by
        rcases List.mem_cons.mp h with heq | hmem
        · exact absurd heq.symm hk
        · exact hmem
      have step := ih hrest
      simp only [keys] at step ⊢
      simp [put, hk, step]

theorem put_of_not_mem {key : κ} {table : List (κ × α)} (h : key ∉ keys table) (v : α) :
    put key v table = table ++ [(key, v)] := by
  induction table with
  | nil => rfl
  | cons e rest ih =>
    simp only [keys, List.map_cons, List.mem_cons, not_or] at h
    have hk : ¬ e.1 = key := fun heq => h.1 heq.symm
    simp [put, hk, ih h.2]

theorem keys_put_of_not_mem {key : κ} {table : List (κ × α)} (h : key ∉ keys table) (v : α) :
    keys (put key v table) = keys table ++ [key] := by
  rw [put_of_not_mem h, keys, List.map_append]
  rfl

theorem mem_keys_put {key other : κ} {table : List (κ × α)} (v : α) :
    other ∈ keys (put key v table) ↔ other = key ∨ other ∈ keys table := by
  by_cases h : key ∈ keys table
  · rw [keys_put_of_mem h]
    constructor
    · exact Or.inr
    · rintro (rfl | hmem)
      · exact h
      · exact hmem
  · rw [keys_put_of_not_mem h]
    simp [or_comm]

theorem nodup_keys_put {table : List (κ × α)} (h : (keys table).Nodup) (key : κ) (v : α) :
    (keys (put key v table)).Nodup := by
  by_cases hmem : key ∈ keys table
  · rw [keys_put_of_mem hmem]
    exact h
  · rw [keys_put_of_not_mem hmem, List.nodup_append]
    refine ⟨h, by simp, ?_⟩
    intro a ha b hb heq
    rw [List.mem_singleton] at hb
    exact hmem (hb ▸ heq ▸ ha)

theorem lookup_erase_self (key : κ) (table : List (κ × α)) :
    (erase key table).lookup key = none := by
  induction table with
  | nil => rfl
  | cons e rest ih =>
    obtain ⟨k, w⟩ := e
    by_cases h : k = key
    · simpa [erase, h] using ih
    · have hne : (key == k) = false := beq_eq_false_iff_ne.mpr (Ne.symm h)
      simp only [erase] at ih
      simp [erase, h, List.lookup_cons, hne, ih]

theorem lookup_erase_of_ne {key other : κ} (h : other ≠ key) (table : List (κ × α)) :
    (erase key table).lookup other = table.lookup other := by
  induction table with
  | nil => rfl
  | cons e rest ih =>
    obtain ⟨k, w⟩ := e
    simp only [erase] at ih
    by_cases hk : k = key
    · have hne : (other == k) = false := beq_eq_false_iff_ne.mpr (hk ▸ h)
      simp [erase, hk, List.lookup_cons, hk ▸ hne, ih]
    · simp only [erase, bne_iff_ne, ne_eq, hk, not_false_eq_true, List.filter_cons_of_pos,
        List.lookup_cons]
      split <;> simp [ih]

end Clearance.Entries
