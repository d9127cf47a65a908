import Clearance.Proofs.Checked
import Clearance.Proofs.Value.Names

/-! Values of JSON, and what reading makes of them.

A value of JSON is read for what it is: only a text is read as a text, only a list of texts
as a list of names, and a mapping entry by entry, since none of its keys reads like
another. -/
namespace Clearance

namespace Value

/-- A value that JSON has: null, a truth value, a number, a text, a list of such values, or
a mapping to such values from texts, none of which is there twice. -/
inductive IsJson : Value → Prop
  | null : IsJson null
  | bool (b : Bool) : IsJson (bool b)
  | int (n : Int) : IsJson (int n)
  | float (x : Binary64) : IsJson (float x)
  | text (s : String) : IsJson (text s)
  | list {items : List Value} (members : ∀ v ∈ items, IsJson v) : IsJson (list items)
  | dict {entries : List (Value × Value)} (keys : ∀ e ∈ entries, e.1.IsText)
      (distinct : (entries.map Prod.fst).Nodup) (values : ∀ e ∈ entries, IsJson e.2) :
      IsJson (dict entries)

namespace IsJson

variable {v : Value}

theorem eq_text (h : v.IsJson) {s : String} (htext : v.text? = some s) : v = .text s := by
  cases h with
  | text t =>
    cases htext
    rfl
  | _ => cases htext

theorem eq_dict (h : v.IsJson) {entries : List (Value × Value)}
    (hentries : v.entries? = some entries) : v = .dict entries := by
  cases h with
  | dict =>
    cases hentries
    rfl
  | _ => cases hentries

theorem eq_list (h : v.IsJson) {items : List Value} (hitems : listItems? v = some items) :
    v = .list items := by
  cases h with
  | list =>
    cases hitems
    rfl
  | _ => cases hitems

theorem nil : IsJson (.dict []) :=
  .dict (by simp) (by simp) (by simp)

/-- A mapping may get an entry with a key of its own in front. -/
theorem cons {key : String} {rest : List (Value × Value)} (hv : v.IsJson)
    (hnew : ∀ e ∈ rest, e.1 ≠ .text key) (hrest : IsJson (.dict rest)) :
    IsJson (.dict ((.text key, v) :: rest)) := by
  cases hrest with
  | dict keys distinct values =>
    refine .dict (List.forall_mem_cons.mpr ⟨⟨key, rfl⟩, keys⟩) ?_
      (List.forall_mem_cons.mpr ⟨hv, values⟩)
    rw [List.map_cons, List.nodup_cons, List.mem_map]
    refine ⟨?_, distinct⟩
    rintro ⟨e, he, hkey⟩
    exact hnew e he hkey

end IsJson

end Value

/-! ## Sections -/

namespace Section

/-- A section whose keys are texts, none of which is there twice. -/
structure Keyed (body : Section) : Prop where
  texts : ∀ e ∈ body, e.1.IsText
  distinct : (body.map Prod.fst).Nodup

/-- The entries of a mapping of JSON. -/
abbrev IsJson (body : Section) : Prop :=
  Value.IsJson (.dict body)

variable {body : Section}

theorem IsJson.keyed (h : body.IsJson) : body.Keyed := by
  cases h with
  | dict keys distinct _ => exact ⟨keys, distinct⟩

/-- A section says under a key what stands there. -/
theorem Keyed.get?_eq_some_iff (h : body.Keyed) {key : String} {v : Value} :
    body.get? key = some v ↔ (.text key, v) ∈ body := by
  have hsame : ∀ e ∈ body, Value.same e.1 (.text key) = true ↔ e.1 = .text key := by
    intro e he
    obtain ⟨k, hk⟩ := h.texts e he
    rw [hk, Value.same_iff_of_isName (Value.isName_text k)]
    simp [eq_comm]
  rw [get?, Value.at?, Option.map_eq_some_iff]
  constructor
  · rintro ⟨e, hfind, rfl⟩
    have hmem := List.mem_of_find?_eq_some hfind
    have hfound := List.find?_some hfind
    rwa [← (hsame e hmem).mp hfound]
  · intro hmem
    cases hfind : body.find? fun e => Value.same e.1 (.text key) with
    | none => exact absurd ((hsame _ hmem).mpr rfl) (List.find?_eq_none.mp hfind _ hmem)
    | some e =>
      have hmem' := List.mem_of_find?_eq_some hfind
      have hfound := List.find?_some hfind
      have hkey := (hsame e hmem').mp hfound
      exact ⟨e, rfl, congrArg Prod.snd (List.inj_on_of_nodup_map h.distinct hmem' hmem hkey)⟩

theorem get?_eq_some_iff (h : body.IsJson) {key : String} {v : Value} :
    body.get? key = some v ↔ (.text key, v) ∈ body :=
  h.keyed.get?_eq_some_iff

theorem isJson_of_get? (h : body.IsJson) {key : String} {v : Value} (hv : body.get? key = some v) :
    v.IsJson := by
  have hmem := (get?_eq_some_iff h).mp hv
  cases h with
  | dict _ _ values => exact values _ hmem

end Section

/-! ## Reading -/

theorem eq_text_of_readText {v : Value} (h : v.IsJson) {s : String} (hread : readText v = .fits s) :
    v = .text s := by
  unfold readText at hread
  split at hread
  · rename_i htext
    cases hread
    exact h.eq_text htext
  · cases h
  · cases h
  · cases hread

/-- Only a list of texts is read as a list of names. -/
theorem eq_ofNames_of_readNames {v : Value} (h : v.IsJson) {names : List String}
    (hread : readNames v = .fits names) : v = Value.ofNames names := by
  unfold readNames at hread
  split at hread
  · rename_i items hitems
    have hlist := h.eq_list hitems
    subst hlist
    cases h with
    | list members =>
      rw [Checked.all_eq_fits_iff, List.forall₂_iff_get] at hread
      obtain ⟨hlength, hget⟩ := hread
      rw [List.length_mapIdx] at hlength
      rw [Value.ofNames]
      congr 1
      refine List.ext_getElem (by rw [List.length_map, hlength]) fun i hi hi' => ?_
      have hpart := hget i (by rwa [List.length_mapIdx]) (by rwa [← hlength])
      rw [List.get_eq_getElem, List.get_eq_getElem, List.getElem_mapIdx,
        Checked.under_eq_fits_iff] at hpart
      rw [List.getElem_map]
      exact eq_text_of_readText (members _ (List.getElem_mem hi)) hpart
  · cases hread

/-- A value that may be null is null, or is read as any other. -/
theorem eq_dict_of_readSection {α : Type} {read : Section → Checked α} {v : Value} (h : v.IsJson)
    {a : α} (hread : readSection read v = .fits a) :
    ∃ body, v = .dict body ∧ read body = .fits a := by
  obtain ⟨body, hbody, hfits⟩ := exists_of_readSection hread
  exact ⟨body, h.eq_dict hbody, hfits⟩

/-- Entries with keys of their own are put in their order. -/
theorem putAll_of_nodup {α : Type} {table items : List (String × α)}
    (h : (Entries.keys (table ++ items)).Nodup) :
    Entries.putAll table items = table ++ items := by
  induction items generalizing table with
  | nil => exact (List.append_nil table).symm
  | cons e rest ih =>
    have hnew : e.1 ∉ Entries.keys table := by
      rw [Entries.keys, List.map_append, List.nodup_append] at h
      exact fun hmem => h.2.2 e.1 hmem e.1 (List.mem_map_of_mem List.mem_cons_self) rfl
    have hassoc : table ++ e :: rest = table ++ [e] ++ rest := by simp
    rw [Entries.putAll, List.foldl_cons, ← Entries.putAll, Entries.put_of_not_mem hnew, hassoc]
    exact ih (hassoc ▸ h)

/-- **A mapping is read entry by entry**, and the table has its entries in their order. -/
theorem eq_dict_of_readMapping {α : Type} {read : Value → Checked α} {v : Value} (h : v.IsJson)
    {table : List (String × α)} (hread : readMapping read v = .fits table) :
    ∃ entries, v = .dict entries ∧
      List.Forall₂ (fun e t => e.1 = .text t.1 ∧ e.2.IsJson ∧ read e.2 = .fits t.2)
        entries table := by
  obtain ⟨entries, items, hentries, hitems, rfl⟩ := forall₂_of_readMapping hread
  have hdict := h.eq_dict hentries
  subst hdict
  cases h with
  | dict keys distinct values =>
    have hentry : List.Forall₂ (fun e t => e.1 = .text t.1 ∧ e.2.IsJson ∧ read e.2 = .fits t.2)
        entries items := by
      have hjson : ∀ e ∈ entries, e.1.IsText ∧ e.2.IsJson :=
        fun e he => ⟨keys e he, values e he⟩
      refine ((List.forall₂_and_left _ _).mpr ⟨hjson, hitems⟩).imp ?_
      rintro e t ⟨⟨⟨k, hk⟩, hvalue⟩, hkey, hread⟩
      rw [hk] at hkey
      cases hkey
      exact ⟨hk, hvalue, hread⟩
    have hkeys : List.Forall₂ (· = ·) (entries.map Prod.fst)
        ((Entries.keys items).map Value.text) := by
      rw [Entries.keys, List.forall₂_map_left_iff, List.map_map, List.forall₂_map_right_iff]
      exact hentry.imp fun _ _ he => he.1
    rw [List.forall₂_eq_eq_eq] at hkeys
    have hnodup : (Entries.keys ([] ++ items)).Nodup := List.Nodup.of_map _ (hkeys ▸ distinct)
    exact ⟨entries, rfl, (putAll_of_nodup hnodup).symm ▸ hentry⟩

end Clearance
