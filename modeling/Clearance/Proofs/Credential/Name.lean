import Clearance.Credential.Name
import Clearance.Proofs.Run
import Clearance.Proofs.Value.Names
import Mathlib.Data.List.Infix

/-! Which names are accepted, and what they are joined to.

An entity type and a credential name are accepted alike: neither is blank, and the
separator does not stand in either (`Accepted`). That fixes the entity type of a formatted
name up to the seam: where one entity type goes on with underscores and the other's name
begins with them, the two formatted names are one text (`join_eq_join_iff`). -/
namespace Clearance.Name

/-- The separator stands somewhere in a text. -/
def Separated (s : String) : Prop :=
  separator.toList <:+: s.toList

/-- A text that is not blank, and in which the separator does not stand. -/
structure Accepted (s : String) : Prop where
  solid : Text.isBlankText s = false
  whole : ¬ Separated s

theorem hasSeparator_iff {s : String} : hasSeparator s = true ↔ Separated s := by
  rw [hasSeparator, Text.occursIn_iff, Separated, List.IsInfix]
  simp only [eq_comm]

instance : DecidablePred Separated :=
  fun _ => decidable_of_iff _ hasSeparator_iff

/-- Both checks of a text end alike: in an acceptance, or in one of two rejections. -/
theorem rejectsUnless_accepted {s : String} {blank separated : Rejection} {kind : ErrorKind}
    (hblank : blank.kind = kind) (hseparated : separated.kind = kind)
    (hwritten : ∀ v ∈ blank.written ++ separated.written, v.writable = true) :
    RejectsUnless kind (Accepted s)
      (if Text.isBlankText s then refuse blank
        else if hasSeparator s then refuse separated
        else .ok () : Except Failure Unit) := by
  rw [List.forall_mem_append] at hwritten
  split
  · rename_i h
    exact rejectsUnless_error (fun ha => by simp [ha.solid] at h) hblank hwritten.1
  · rename_i hsolid
    split
    · rename_i h
      exact rejectsUnless_error (fun ha => ha.whole (hasSeparator_iff.mp h)) hseparated hwritten.2
    · rename_i hwhole
      exact rejectsUnless_ok ⟨by simpa using hsolid, fun h => hwhole (hasSeparator_iff.mpr h)⟩

/-- The name of a credential is taken exactly when it is a text that is accepted. Refusing
one that cannot be written out sticks. -/
theorem rejectsUnless_check {owner : Value} (howner : owner.writable = true) (name : Value) :
    RejectsUnless .invalidCredential (name.IsName ∧ Accepted name.word) (check owner name)
      (Sticks (name.writable = false)) := by
  cases htext : name.text? with
  | none =>
    rw [check, htext]
    refine rejectsUnless_refuse ?_ rfl (by simp [Rejection.written, howner])
    simp [Value.IsName, htext]
  | some s =>
    obtain ⟨hname, rfl⟩ := Value.text?_eq_some_iff.mp htext
    rw [check, htext]
    refine RejectsUnless.congr (rejectsUnless_accepted rfl rfl ?_) (and_iff_right hname).symm
      fun f => by simp [Sticks, hname.writable]
    simp [Rejection.written, howner, hname.writable]

/-- Whatever the owner is, the names that are taken are the accepted ones. -/
theorem check_eq_ok_iff {owner name : Value} :
    check owner name = .ok () ↔ name.IsName ∧ Accepted name.word := by
  unfold check
  constructor
  · intro h
    split at h
    · exact absurd h refuse_ne_ok
    · rename_i s hs
      obtain ⟨hname, rfl⟩ := Value.text?_eq_some_iff.mp hs
      split at h
      · exact absurd h refuse_ne_ok
      · rename_i hsolid
        split at h
        · exact absurd h refuse_ne_ok
        · rename_i hwhole
          exact ⟨hname, by simpa using hsolid, fun h => hwhole (hasSeparator_iff.mpr h)⟩
  · rintro ⟨hname, haccepted⟩
    have hwhole : hasSeparator name.word = false :=
      Bool.eq_false_iff.mpr fun h => haccepted.whole (hasSeparator_iff.mp h)
    simp [hname.text?, haccepted.solid, hwhole]

/-! ## Formatted names -/

theorem toList_join (entityType name : String) :
    (join entityType name).toList = entityType.toList ++ separator.toList ++ name.toList := by
  rw [join, String.toList_append, String.toList_append]

/-- A formatted name is never a bare one. -/
theorem separated_join (entityType name : String) : Separated (join entityType name) := by
  rw [Separated, toList_join]
  exact List.infix_append _ _ _

theorem join_right_inj {entityType n n' : String} :
    join entityType n = join entityType n' ↔ n = n' := by
  rw [← String.toList_inj, toList_join, toList_join, List.append_cancel_left_eq, String.toList_inj]

/-- A common entity type in front leaves texts in their order. -/
theorem strict_map_join (entityType : String) {names : List String}
    (h : Ascending.Strict names) : Ascending.Strict (names.map (join entityType)) := by
  refine List.pairwise_map.mpr (List.Pairwise.imp ?_ h)
  intro a b hlt
  have hless : a < b := compareOfLessAndEq_eq_lt.mp hlt
  have hjoined : join entityType a < join entityType b := by
    rw [String.lt_iff, toList_join, toList_join]
    exact List.append_left_lt (String.lt_iff.mp hless)
  exact compareOfLessAndEq_eq_lt.mpr hjoined

/-- The seam of two formatted names can be read in two ways: the second entity type goes
on with the underscores that the first name begins with. -/
def Shifts (e n e' n' : String) : Prop :=
  ∃ u ∈ ["_", "__"], e' = e ++ u ∧ n = u ++ n'

theorem join_eq_of_shifts {e n e' n' : String} (h : Shifts e n e' n') :
    join e n = join e' n' := by
  obtain ⟨u, hu, rfl, rfl⟩ := h
  rw [← String.toList_inj, toList_join, toList_join]
  simp only [List.mem_cons, List.not_mem_nil, or_false] at hu
  rcases hu with rfl | rfl <;> simp [separator]

/-- Where two separators overlap, no more than two underscores lie between their ends. -/
theorem overlap_cases {rest n n' : List Char}
    (h : separator.toList ++ n = rest ++ separator.toList ++ n')
    (hrest : ¬ separator.toList <+: rest) :
    rest = [] ∨ ∃ u ∈ ["_", "__"], rest = u.toList ∧ n = u.toList ++ n' := by
  match rest with
  | [] => exact .inl rfl
  | [a] =>
    right
    simp [separator] at h
    obtain ⟨rfl, h⟩ := h
    exact ⟨"_", by simp, by simp, by simpa using h⟩
  | [a, b] =>
    right
    simp [separator] at h
    obtain ⟨rfl, rfl, h⟩ := h
    exact ⟨"__", by simp, by simp, by simpa using h⟩
  | a :: b :: c :: tail =>
    simp [separator] at h
    obtain ⟨rfl, rfl, rfl, -⟩ := h
    exact absurd ⟨tail, rfl⟩ hrest

/-- An entity type that another one begins with differs from it by the seam at most. -/
theorem shifts_of_prefix {e e' n n' : String} {rest : List Char}
    (hrest : e'.toList = e.toList ++ rest) (h : join e n = join e' n') (he' : ¬ Separated e') :
    (e = e' ∧ n = n') ∨ Shifts e n e' n' := by
  rw [← String.toList_inj, toList_join, toList_join, hrest] at h
  simp only [List.append_assoc, List.append_cancel_left_eq] at h
  have hstart : ¬ separator.toList <+: rest := by
    intro hstart
    refine he' ?_
    rw [Separated, hrest]
    exact hstart.isInfix.trans (List.suffix_append _ _).isInfix
  rcases overlap_cases (h.trans (List.append_assoc _ _ _).symm) hstart with rfl | ⟨u, hu, rfl, hn⟩
  · left
    rw [List.append_nil, String.toList_inj] at hrest
    rw [List.nil_append, List.append_cancel_left_eq, String.toList_inj] at h
    exact ⟨hrest.symm, h⟩
  · right
    refine ⟨u, hu, ?_, ?_⟩
    · rw [← String.toList_inj, hrest, String.toList_append]
    · rw [← String.toList_inj, hn, String.toList_append]

/-- **What a formatted name says.** Two entity types without the separator share a formatted
name exactly when both parts are the same, or when underscores stand at the seam. -/
theorem join_eq_join_iff {e e' n n' : String} (he : ¬ Separated e) (he' : ¬ Separated e') :
    join e n = join e' n' ↔ (e = e' ∧ n = n') ∨ Shifts e n e' n' ∨ Shifts e' n' e n := by
  constructor
  · intro h
    have hlists := h
    rw [← String.toList_inj, toList_join, toList_join, List.append_assoc, List.append_assoc]
      at hlists
    -- one of the two entity types is the beginning of the other
    rcases List.append_eq_append_iff.mp hlists with ⟨rest, hrest, -⟩ | ⟨rest, hrest, -⟩
    · rcases shifts_of_prefix hrest h he' with hsame | hshift
      · exact .inl hsame
      · exact .inr (.inl hshift)
    · rcases shifts_of_prefix hrest h.symm he with ⟨rfl, rfl⟩ | hshift
      · exact .inl ⟨rfl, rfl⟩
      · exact .inr (.inr hshift)
  · rintro (⟨rfl, rfl⟩ | hshift | hshift)
    · rfl
    · exact join_eq_of_shifts hshift
    · exact (join_eq_of_shifts hshift).symm

end Clearance.Name
