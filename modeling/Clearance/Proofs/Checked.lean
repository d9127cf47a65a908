import Clearance.Checked
import Clearance.Proofs.Entries
import Clearance.Proofs.Run
import Mathlib.Data.List.Forall2

/-! What readers answer when nothing is wrong.

Readers that are put together answer exactly when each part does; the keys of a mapping
that was read are free of duplicates, and its values were read by the reader of values. -/
namespace Clearance

namespace Checked

variable {α β : Type}

theorem map_eq_fits_iff {f : α → β} {x : Checked α} {b : β} :
    f <$> x = fits b ↔ ∃ a, x = fits a ∧ f a = b := by
  cases x with
  | fits a => simp
  | faulty issues =>
    show faulty issues = fits b ↔ _
    simp

theorem seq_eq_fits_iff {x : Checked (α → β)} {y : Checked α} {b : β} :
    x <*> y = fits b ↔ ∃ f a, x = fits f ∧ y = fits a ∧ f a = b := by
  show apply x y = fits b ↔ _
  cases x <;> cases y <;> simp [apply]

theorem under_eq_fits_iff {step : Step} {x : Checked α} {a : α} :
    x.under step = fits a ↔ x = fits a := by
  cases x <;> simp [under]

/-- A list of parts is read when each of them is. -/
theorem all_eq_fits_iff {xs : List (Checked α)} {as : List α} :
    all xs = fits as ↔ List.Forall₂ (fun x a => x = fits a) xs as := by
  induction xs generalizing as with
  | nil => simp [all, eq_comm]
  | cons x rest ih =>
    rw [all, seq_eq_fits_iff, List.forall₂_cons_left_iff]
    constructor
    · rintro ⟨f, more, hf, hmore, rfl⟩
      obtain ⟨a, ha, rfl⟩ := map_eq_fits_iff.mp hf
      exact ⟨a, more, ha, ih.mp hmore, rfl⟩
    · rintro ⟨a, more, ha, hmore, rfl⟩
      exact ⟨_, more, map_eq_fits_iff.mpr ⟨a, ha, rfl⟩, ih.mpr hmore, rfl⟩

end Checked

/-! ## Sections -/

variable {α : Type} {body : Section}

theorem Section.of_only {known : List String} {read : Checked α} {a : α}
    (h : body.only known read = .fits a) : read = .fits a := by
  unfold Section.only at h
  split at h
  · exact h
  · cases h
  · cases h

/-- A section has no keys but known ones. -/
def Section.OnlyKeys (known : List String) (body : Section) : Prop :=
  ∀ e ∈ body, ∃ s ∈ known, e.1.text? = some s

theorem Section.strangers_eq_nil_iff {known : List String} :
    body.strangers known = [] ↔ body.OnlyKeys known := by
  unfold OnlyKeys
  induction body with
  | nil => simp [strangers]
  | cons e rest ih =>
    obtain ⟨key, v⟩ := e
    rw [strangers, List.forall_mem_cons]
    cases htext : key.text? with
    | none => simp
    | some s =>
      by_cases hknown : s ∈ known
      · simp [hknown, ih]
      · simp [hknown]

theorem Section.onlyKeys_of_only {known : List String} {read : Checked α} {a : α}
    (h : body.only known read = .fits a) : body.OnlyKeys known := by
  rw [← strangers_eq_nil_iff]
  unfold Section.only at h
  split at h
  · assumption
  · cases h
  · cases h

/-- A part of a section is what it is when absent, or was read from what stands there. -/
theorem Section.optional_eq_fits_iff {key : String} {absent : α} {read : Value → Checked α}
    {a : α} :
    body.optional key absent read = .fits a ↔
      (body.get? key = none ∧ a = absent) ∨ ∃ v, body.get? key = some v ∧ read v = .fits a := by
  unfold Section.optional
  cases body.get? key with
  | none => simp [eq_comm]
  | some v => simp [Checked.under_eq_fits_iff]

/-- A part that has to be there was read from what stands there. -/
theorem Section.required_eq_fits_iff {key : String} {read : Value → Checked α} {a : α} :
    body.required key read = .fits a ↔ ∃ v, body.get? key = some v ∧ read v = .fits a := by
  unfold Section.required
  cases body.get? key with
  | none => simp
  | some v => simp [Checked.under_eq_fits_iff]

/-- A part of a section is what it is when absent, or was read. -/
theorem Section.optional_cases {key : String} {absent : α} {read : Value → Checked α} {a : α}
    (h : body.optional key absent read = .fits a) : a = absent ∨ ∃ v, read v = .fits a := by
  unfold Section.optional at h
  split at h
  · exact .inr ⟨_, Checked.under_eq_fits_iff.mp h⟩
  · cases h
    exact .inl rfl

theorem readOptional_cases {α : Type} {read : Value → Checked α} {v : Value} {a? : Option α}
    (hread : readOptional read v = .fits a?) :
    (v = .null ∧ a? = none) ∨ ∃ a, a? = some a ∧ read v = .fits a := by
  unfold readOptional at hread
  split at hread
  · cases hread
    exact .inl ⟨rfl, rfl⟩
  · obtain ⟨a, ha, rfl⟩ := Checked.map_eq_fits_iff.mp hread
    exact .inr ⟨a, rfl, ha⟩

theorem exists_of_readSection {read : Section → Checked α} {v : Value} {a : α}
    (h : readSection read v = .fits a) : ∃ body, v.entries? = some body ∧ read body = .fits a := by
  unfold readSection at h
  split at h
  · exact ⟨_, ‹_›, h⟩
  · cases h

/-! ## Mappings -/

/-- Entries that are put one after another leave no key twice and no value of another kind. -/
theorem nodup_putAll {P : α → Prop} {items : List (String × α)} (hitems : ∀ e ∈ items, P e.2)
    {table : List (String × α)} (hnodup : (Entries.keys table).Nodup)
    (htable : ∀ e ∈ table, P e.2) :
    (Entries.keys (Entries.putAll table items)).Nodup ∧
      ∀ e ∈ Entries.putAll table items, P e.2 := by
  induction items generalizing table with
  | nil => exact ⟨hnodup, htable⟩
  | cons e rest ih =>
    rw [List.forall_mem_cons] at hitems
    refine ih hitems.2 (Entries.nodup_keys_put hnodup e.1 e.2) ?_
    intro e' he'
    rcases (Entries.mem_put hnodup).mp he' with rfl | ⟨he', -⟩
    · exact hitems.1
    · exact htable e' he'

/-- Of entries that are put one after another the last one of a key is found. -/
theorem lookup_putAll (items table : List (String × α)) (name : String) :
    (Entries.putAll table items).lookup name =
      (items.reverse.lookup name).or (table.lookup name) := by
  induction items generalizing table with
  | nil => rfl
  | cons e rest ih =>
    have hput : (Entries.put e.1 e.2 table).lookup name =
        (List.lookup name [e]).or (table.lookup name) := by
      rw [List.lookup_cons, List.lookup_nil]
      by_cases hname : name = e.1
      · subst hname
        simp [Entries.lookup_put_self]
      · simp [Entries.lookup_put_of_ne hname, beq_eq_false_iff_ne.mpr hname]
    rw [Entries.putAll, List.foldl_cons, ← Entries.putAll, ih, hput, List.reverse_cons,
      List.lookup_append, Option.or_assoc]

/-- What was read of a mapping are its entries, put one after another. -/
theorem forall₂_of_readMapping {read : Value → Checked α} {v : Value} {table : List (String × α)}
    (h : readMapping read v = .fits table) : ∃ entries items, v.entries? = some entries ∧
      List.Forall₂ (fun e t => readText e.1 = .fits t.1 ∧ read e.2 = .fits t.2) entries items ∧
      table = Entries.putAll [] items := by
  unfold readMapping at h
  simp only at h
  split at h
  · rename_i entries hentries
    obtain ⟨items, hitems, rfl⟩ := Checked.map_eq_fits_iff.mp h
    refine ⟨entries, items, hentries, ?_, rfl⟩
    rw [Checked.all_eq_fits_iff, List.forall₂_map_left_iff] at hitems
    refine hitems.imp ?_
    intro e t hparts
    obtain ⟨f, a, hf, ha, rfl⟩ := Checked.seq_eq_fits_iff.mp hparts
    obtain ⟨key, hkey, rfl⟩ := Checked.map_eq_fits_iff.mp hf
    exact ⟨Checked.under_eq_fits_iff.mp (Checked.under_eq_fits_iff.mp hkey),
      Checked.under_eq_fits_iff.mp ha⟩
  · cases h

/-- A mapping has no key twice, and its values were read by the reader of values. -/
theorem nodup_of_readMapping {read : Value → Checked α} {v : Value} {table : List (String × α)}
    (h : readMapping read v = .fits table) :
    (Entries.keys table).Nodup ∧ ∀ e ∈ table, ∃ w, read w = .fits e.2 := by
  obtain ⟨entries, items, -, hitems, rfl⟩ := forall₂_of_readMapping h
  refine nodup_putAll (P := fun a => ∃ w, read w = .fits a) ?_ List.nodup_nil (by simp)
  intro t ht
  obtain ⟨e, -, -, hread⟩ := exists_of_mem_forall₂ hitems.flip ht
  exact ⟨e.2, hread⟩

end Clearance
