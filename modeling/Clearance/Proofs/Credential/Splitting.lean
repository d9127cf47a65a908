import Clearance.Policy
import Clearance.Proofs.Credential.Name
import Mathlib.Data.List.TakeWhile

/-! Formatted names taken apart.

A formatted name is split at the last separator in it. Since neither an entity type nor a
name holds the separator, that is the one between them, unless the name begins with
underscores: these then fall to the entity type (`split_join`). So splitting gives back both
parts exactly when the name does not begin with an underscore (`split_format_iff`). -/
namespace Clearance

namespace Text

/-! ## The last place of a piece -/

theorem splitLast?_eq_none {piece text : List Char} (h : ¬ piece <:+: text) :
    splitLast? piece text = none := by
  induction text with
  | nil => rfl
  | cons c rest ih =>
    rw [List.infix_cons_iff, not_or] at h
    rw [splitLast?, ih h.2]
    simp [h.1]

/-- A text is split where the piece stands, if it does not stand anywhere behind. -/
theorem splitLast?_eq_some {p : Char} {ps before behind : List Char}
    (h : ¬ p :: ps <:+: ps ++ behind) :
    splitLast? (p :: ps) (before ++ p :: ps ++ behind) = some (before, behind) := by
  induction before with
  | nil =>
    rw [List.nil_append, List.cons_append, splitLast?, splitLast?_eq_none h]
    simp
  | cons c rest ih =>
    rw [List.cons_append, List.cons_append, splitLast?, ih]

end Text

namespace Name

/-! ## The seam -/

/-- The underscores that a name begins with. -/
def leading (n : String) : String :=
  String.ofList (n.toList.takeWhile (· == '_'))

/-- A name behind the underscores that it begins with. -/
def behindLeading (n : String) : String :=
  String.ofList (n.toList.dropWhile (· == '_'))

theorem leading_append (n : String) : leading n ++ behindLeading n = n := by
  rw [← String.toList_inj, String.toList_append, leading, behindLeading, String.toList_ofList,
    String.toList_ofList, List.takeWhile_append_dropWhile]

theorem leading_eq_empty_iff {n : String} : leading n = "" ↔ n.toList.head? ≠ some '_' := by
  rw [← String.toList_inj, leading, String.toList_ofList, String.toList_empty]
  cases n.toList with
  | nil => simp
  | cons c rest => by_cases hc : c = '_' <;> simp [hc]

theorem head?_behindLeading (n : String) : (behindLeading n).toList.head? ≠ some '_' := by
  rw [behindLeading, String.toList_ofList]
  intro hhead
  have hfirst := List.head?_dropWhile_not (· == '_') n.toList
  rw [hhead] at hfirst
  simp at hfirst

/-- Underscores may be moved over the separator. -/
theorem separator_append_leading (n : String) :
    separator.toList ++ (leading n).toList = (leading n).toList ++ separator.toList := by
  have hall : ∀ c ∈ n.toList.takeWhile (· == '_'), c = '_' :=
    fun c hc => by simpa using List.mem_takeWhile_imp hc
  have hseparator : separator.toList = List.replicate 3 '_' := rfl
  rw [leading, String.toList_ofList, List.eq_replicate_of_mem hall, hseparator,
    List.replicate_append_replicate, List.replicate_append_replicate, Nat.add_comm]

/-- No separator begins within the last two underscores of another one, or behind them, when a
name without leading underscores follows. -/
theorem not_infix_of_head {m : List Char} (hm : ¬ separator.toList <:+: m)
    (hhead : m.head? ≠ some '_') : ¬ separator.toList <:+: '_' :: '_' :: m := by
  have hstart : ∀ rest, m ≠ '_' :: rest := by
    rintro rest rfl
    exact hhead rfl
  have hseparator : separator.toList = ['_', '_', '_'] := rfl
  rw [hseparator] at hm ⊢
  intro h
  rcases List.infix_cons_iff.mp h with ⟨rest, hprefix⟩ | h
  · simp only [List.cons_append, List.cons.injEq, true_and, List.nil_append] at hprefix
    exact hstart _ hprefix.symm
  · rcases List.infix_cons_iff.mp h with ⟨rest, hprefix⟩ | h
    · simp only [List.cons_append, List.cons.injEq, true_and, List.nil_append] at hprefix
      exact hstart _ hprefix.symm
    · exact hm h

/-- **Where a formatted name is split.** The underscores that the name begins with fall to the
entity type. -/
theorem split_join {e n : String} (he : e ≠ "") (hn : ¬ Separated n) :
    split (join e n) = (some (e ++ leading n), behindLeading n) := by
  have htext : (join e n).toList =
      (e ++ leading n).toList ++ separator.toList ++ (behindLeading n).toList := by
    conv_lhs => rw [toList_join, ← leading_append n]
    simp only [String.toList_append, List.append_assoc]
    rw [← List.append_assoc separator.toList, separator_append_leading, List.append_assoc]
  have hrest : ¬ separator.toList <:+: (behindLeading n).toList := by
    intro hbehind
    rw [behindLeading, String.toList_ofList] at hbehind
    exact hn (hbehind.trans (List.dropWhile_suffix _).isInfix)
  have hsplit : Text.splitLast? separator.toList (join e n).toList =
      some ((e ++ leading n).toList, (behindLeading n).toList) := by
    rw [htext]
    exact Text.splitLast?_eq_some (not_infix_of_head hrest (head?_behindLeading n))
  have hfront : (e ++ leading n).toList.isEmpty = false := by
    simp [he]
  rw [split, hsplit]
  simp only [hfront, Bool.false_eq_true, if_false, String.ofList_toList]

/-- A name is formatted when it stands in the container of known names. -/
theorem formatIn_of_heldBy {e n : String} {known : Value}
    (h : heldBy? known (.text n) = some true) :
    formatIn (.text e) known (.text n) = .ok (.text (join e n)) := by
  simp [formatIn, formatBy, h, orMismatch, format, bind, Except.bind, pure, Except.pure]

/-- **Splitting takes a formatted name apart**, and gives back the entity type and the name that
were formatted exactly when the name does not begin with an underscore. Otherwise these
underscores come back at the end of the entity type. -/
theorem split_format_iff {e n : String} {owner known : Value}
    (he : Policy.checkEntityType (.text e) = .ok ()) (hn : check owner (.text n) = .ok ())
    (hknown : heldBy? known (.text n) = some true) :
    ∃ formatted, formatIn (.text e) known (.text n) = .ok (.text formatted) ∧
      split formatted = (some (e ++ leading n), behindLeading n) ∧
      (split formatted = (some e, n) ↔ n.toList.head? ≠ some '_') := by
  have hsolid : e ≠ "" := by
    rintro rfl
    cases he
  have hwhole : ¬ Separated n := (check_eq_ok_iff.mp hn).2.whole
  have hsplit := split_join hsolid hwhole
  refine ⟨_, formatIn_of_heldBy hknown, hsplit, ?_⟩
  rw [hsplit, ← leading_eq_empty_iff, Prod.mk.injEq, Option.some.injEq]
  constructor
  · rintro ⟨hfront, -⟩
    exact String.append_eq_left_iff.mp hfront
  · intro hnone
    have hjoined := leading_append n
    rw [hnone, String.empty_append] at hjoined
    rw [hnone, String.append_empty]
    exact ⟨rfl, hjoined⟩

/-- Known names as they are most often given. -/
theorem split_invoice_edit :
    ∃ formatted, formatIn (.text "Invoice") (.list [.text "edit"]) (.text "edit") =
        .ok (.text formatted) ∧ split formatted = (some "Invoice", "edit") := by
  have he : Policy.checkEntityType (.text "Invoice") = .ok () := rfl
  have hn : check .null (.text "edit") = .ok () := rfl
  have hknown : heldBy? (.list [.text "edit"]) (.text "edit") = some true := by decide +kernel
  obtain ⟨formatted, hformat, -, hiff⟩ := split_format_iff he hn hknown
  exact ⟨formatted, hformat, hiff.mpr (by decide)⟩

/-- The underscore that an accepted name begins with is taken for the end of the entity type. -/
theorem split_invoice_underscore :
    Policy.checkEntityType (.text "Invoice") = .ok () ∧ check .null (.text "_view") = .ok () ∧
      ∃ formatted, formatIn (.text "Invoice") (.list [.text "_view"]) (.text "_view") =
        .ok (.text formatted) ∧ split formatted = (some "Invoice_", "view") ∧
        split formatted ≠ (some "Invoice", "_view") := by
  refine ⟨rfl, rfl, "Invoice____view", ?_, ?_, ?_⟩
  · exact formatIn_of_heldBy (by decide +kernel)
  · decide
  · decide

end Name

end Clearance
