import Clearance.Entries
import Clearance.Proofs.Value.Names
import Mathlib.Data.List.Nodup

/-! Tables by their entries.

As long as no key is there twice, a table is known by which entries it holds: looking
up finds an entry that is there, and putting replaces one. -/
namespace Clearance.Entries

section Keys

variable {κ α : Type}

theorem nodup_of_keys {table : List (κ × α)} (h : (keys table).Nodup) : table.Nodup :=
  List.Nodup.of_map Prod.fst h

variable [BEq κ] [LawfulBEq κ]

theorem lookup_eq_none_iff {key : κ} {table : List (κ × α)} :
    table.lookup key = none ↔ key ∉ keys table := by
  rw [List.lookup_eq_none_iff, keys, List.mem_map]
  constructor
  · rintro h ⟨e, he, rfl⟩
    simpa using h e he
  · intro h e he
    exact bne_iff_ne.mpr fun heq => h ⟨e, he, heq.symm⟩

theorem lookup_eq_some_iff {key : κ} {v : α} {table : List (κ × α)} (h : (keys table).Nodup) :
    table.lookup key = some v ↔ (key, v) ∈ table := by
  induction table with
  | nil => simp
  | cons e rest ih =>
    obtain ⟨k, w⟩ := e
    rw [keys, List.map_cons, List.nodup_cons] at h
    rw [List.lookup_cons, List.mem_cons]
    by_cases hk : key = k
    · subst hk
      have hnew : (key, v) ∉ rest := fun hmem => h.1 (List.mem_map.mpr ⟨_, hmem, rfl⟩)
      simp [hnew, eq_comm]
    · rw [beq_eq_false_iff_ne.mpr hk]
      simp only [ih h.2, Prod.mk.injEq, hk, false_and, false_or]

theorem lookup_eq_find? (table : List (κ × α)) (key : κ) :
    table.lookup key = (table.find? fun e => e.1 == key).map Prod.snd := by
  induction table with
  | nil => rfl
  | cons e rest ih =>
    rw [List.lookup_cons, List.find?_cons, ih]
    by_cases hkey : key = e.1
    · simp [hkey]
    · rw [beq_eq_false_iff_ne.mpr hkey, beq_eq_false_iff_ne.mpr (Ne.symm hkey)]

/-- The entries of one key are the one that is looked up, if there is one. -/
theorem filter_key {table : List (κ × α)} (h : (keys table).Nodup) (key : κ) :
    (table.filter fun e => e.1 == key).map Prod.snd = (table.lookup key).toList := by
  induction table with
  | nil => rfl
  | cons e rest ih =>
    obtain ⟨k, v⟩ := e
    rw [keys, List.map_cons, List.nodup_cons] at h
    rw [List.lookup_cons]
    by_cases hk : key = k
    · subst hk
      have hrest := ih h.2
      rw [lookup_eq_none_iff.mpr h.1] at hrest
      rw [List.filter_cons_of_pos (by simp), List.map_cons, hrest, beq_self_eq_true]
      rfl
    · rw [List.filter_cons_of_neg (by simpa using Ne.symm hk), ih h.2,
        beq_eq_false_iff_ne.mpr hk]

/-- A table is known by its keys in their order and by what stands under each of them. -/
theorem eq_of_lookup {table table' : List (κ × α)} (hkeys : keys table = keys table')
    (h : (keys table).Nodup) (hlookup : ∀ key, table.lookup key = table'.lookup key) :
    table = table' := by
  induction table generalizing table' with
  | nil => exact (List.map_eq_nil_iff.mp hkeys.symm).symm
  | cons e rest ih =>
    obtain ⟨k, v⟩ := e
    obtain ⟨⟨k', v'⟩, rest', rfl, hfirst, hrest⟩ := List.map_eq_cons_iff.mp hkeys.symm
    cases hfirst
    rw [keys, List.map_cons, List.nodup_cons] at h
    have hv := hlookup k
    rw [List.lookup_cons_self, List.lookup_cons_self] at hv
    cases hv
    refine congrArg _ (ih hrest.symm h.2 fun key => ?_)
    by_cases hk : key = k
    · -- the key of the first entry stands in neither rest
      subst hk
      rw [lookup_eq_none_iff.mpr h.1, lookup_eq_none_iff.mpr fun hmem => h.1 (hrest ▸ hmem)]
    · have hother := hlookup key
      rwa [List.lookup_cons, List.lookup_cons, beq_eq_false_iff_ne.mpr hk] at hother

/-- Without its order a table is known by what stands under each key. -/
theorem perm_of_lookup {table table' : List (κ × α)} (h : (keys table).Nodup)
    (h' : (keys table').Nodup) (hlookup : ∀ key, table.lookup key = table'.lookup key) :
    table.Perm table' := by
  refine (List.perm_ext_iff_of_nodup (nodup_of_keys h) (nodup_of_keys h')).mpr ?_
  rintro ⟨key, v⟩
  rw [← lookup_eq_some_iff h, ← lookup_eq_some_iff h', hlookup]

/-- Putting a value under a key replaces what stood there and leaves the rest. -/
theorem mem_put {key : κ} {v : α} {table : List (κ × α)} (h : (keys table).Nodup) {e : κ × α} :
    e ∈ put key v table ↔ e = (key, v) ∨ (e ∈ table ∧ e.1 ≠ key) := by
  obtain ⟨k, w⟩ := e
  rw [← lookup_eq_some_iff (nodup_keys_put h key v)]
  by_cases hk : k = key
  · subst hk
    rw [lookup_put_self]
    simp [eq_comm]
  · rw [lookup_put_of_ne hk, lookup_eq_some_iff h]
    simp [hk]

/-- Keys in the order in which they came first stay so when another value is put. -/
theorem keys_put_of_eraseDups {names : List κ} {table : List (κ × α)}
    (h : keys table = names.eraseDups) (key : κ) (v : α) :
    keys (put key v table) = (names ++ [key]).eraseDups := by
  have hmem : key ∈ keys table ↔ key ∈ names := by rw [h, List.mem_eraseDups]
  rw [List.eraseDups_append]
  by_cases hkey : key ∈ names
  · rw [keys_put_of_mem (hmem.mpr hkey), h]
    simp [List.removeAll, hkey]
  · rw [keys_put_of_not_mem (mt hmem.mp hkey), h]
    simp [List.removeAll, hkey, List.eraseDups_cons]

end Keys

/-- Whatever is looked up stands in the table, whether or not keys can be told apart. -/
theorem mem_of_lookup {κ α : Type} [BEq κ] {key : κ} {v : α} {table : List (κ × α)}
    (h : table.lookup key = some v) : v ∈ table.map Prod.snd := by
  induction table with
  | nil => cases h
  | cons e rest ih =>
    rw [List.lookup_cons] at h
    split at h
    · cases h
      exact List.mem_cons_self
    · exact List.mem_cons_of_mem _ (ih h)

/-! ## Tables with values for keys -/

section Sharp

variable {κ α : Type} [BEq κ] {q : κ}

/-- A key that equal keys match alike, and that only equal keys match. Not every value is
one, for equality of values cannot always be told. -/
structure Sharp (q : κ) : Prop where
  congr {a b : κ} (h : (a == b) = true) : (q == a) = (q == b)
  unique {a b : κ} (ha : (q == a) = true) (hb : (q == b) = true) : (a == b) = true

/-- Looking up a sharp key finds what was put under a key that it matches. -/
theorem Sharp.lookup_put (hq : Sharp q) (key : κ) (v : α) (table : List (κ × α)) :
    (put key v table).lookup q = if q == key then some v else table.lookup q := by
  induction table with
  | nil =>
    rw [put, List.lookup_cons]
    cases q == key <;> rfl
  | cons e rest ih =>
    obtain ⟨k, w⟩ := e
    simp only [put]
    by_cases hkey : (k == key) = true
    · rw [if_pos hkey, List.lookup_cons, List.lookup_cons, hq.congr hkey]
      cases q == key <;> rfl
    · rw [if_neg hkey, List.lookup_cons, List.lookup_cons, ih]
      cases hfirst : q == k with
      | false => rfl
      | true =>
        have hother : (q == key) = false :=
          Bool.eq_false_iff.mpr fun hmatch => hkey (hq.unique hfirst hmatch)
        simp [hother]

theorem Sharp.prod {κ' : Type} [BEq κ'] {q' : κ'} (hq : Sharp q) (hq' : Sharp q') :
    Sharp (q, q') where
  congr {a b} h := by
    obtain ⟨h, h'⟩ := (Bool.and_eq_true _ _).mp h
    exact congrArg₂ and (hq.congr h) (hq'.congr h')
  unique {a b} ha hb := by
    obtain ⟨ha, ha'⟩ := (Bool.and_eq_true _ _).mp ha
    obtain ⟨hb, hb'⟩ := (Bool.and_eq_true _ _).mp hb
    exact (Bool.and_eq_true _ _).mpr ⟨hq.unique ha hb, hq'.unique ha' hb'⟩

/-- Names are told apart by their texts. -/
theorem sharp_of_isName {v : Value} (h : v.IsName) : Sharp v where
  congr {a b} hab := by
    rw [Bool.eq_iff_iff, Value.beq_eq_same, Value.beq_eq_same, Value.same_iff_of_isName h,
      Value.same_iff_of_isName h]
    constructor
    · intro ha
      obtain ⟨hname, hword⟩ := Value.text?_eq_some_iff.mp ha
      exact hword ▸ (Value.same_iff_of_isName hname).mp hab
    · intro hb
      obtain ⟨hname, hword⟩ := Value.text?_eq_some_iff.mp hb
      exact hword ▸ (Value.same_iff_of_isName_right hname).mp hab
  unique {a b} ha hb := by
    rw [Value.beq_eq_same, Value.same_iff_of_isName h] at ha hb
    obtain ⟨hname, hword⟩ := Value.text?_eq_some_iff.mp ha
    rw [Value.beq_eq_same, Value.same_iff_of_isName hname, hb, hword]

theorem sharp_null : Sharp Value.null where
  congr {a b} hab := by
    rw [Bool.eq_iff_iff, Value.beq_eq_same, Value.beq_eq_same, Value.same_null_iff,
      Value.same_null_iff]
    constructor
    · rintro rfl
      exact Value.same_null_iff.mp hab
    · rintro rfl
      exact Value.same_null_iff_right.mp hab
  unique {a b} ha hb := by
    rw [Value.beq_eq_same, Value.same_null_iff] at ha hb
    rw [ha, hb]
    exact Value.same_null

end Sharp

theorem lookup_put_text {α : Type} {s t : String} {v : α} (table : List (Value × α)) :
    (put (.text s) v table).lookup (.text t) =
      if t = s then some v else table.lookup (.text t) := by
  rw [(sharp_of_isName (Value.isName_text t)).lookup_put]
  simp

end Clearance.Entries
