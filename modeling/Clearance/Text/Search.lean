/-! Finding a piece of text inside another. -/
namespace Clearance.Text

/-- Whether a piece stands somewhere in a text. -/
def occursIn (piece : List Char) : List Char → Bool
  | [] => piece.isEmpty
  | c :: rest => piece.isPrefixOf (c :: rest) || occursIn piece rest

/-- What stands before and after the last place of a piece in a text. -/
def splitLast? (piece : List Char) : List Char → Option (List Char × List Char)
  | [] => none
  | c :: rest =>
    match splitLast? piece rest with
    | some (before, behind) => some (c :: before, behind)
    | none =>
      if piece.isPrefixOf (c :: rest) then some ([], (c :: rest).drop piece.length) else none

/-- A piece stands in a text exactly when the text is something, the piece and something more. -/
theorem occursIn_iff {piece text : List Char} :
    occursIn piece text = true ↔ ∃ before behind, text = before ++ piece ++ behind := by
  induction text with
  | nil =>
    constructor
    · intro h
      exact ⟨[], [], by simpa [occursIn] using h⟩
    · rintro ⟨before, behind, h⟩
      have : piece = [] := by simp_all
      simp [occursIn, this]
  | cons c rest ih =>
    simp only [occursIn, Bool.or_eq_true, List.isPrefixOf_iff_prefix, ih]
    constructor
    · rintro (⟨behind, h⟩ | ⟨before, behind, h⟩)
      · exact ⟨[], behind, by simp [h]⟩
      · exact ⟨c :: before, behind, by simp [h]⟩
    · rintro ⟨before, behind, h⟩
      cases before with
      | nil => exact .inl ⟨behind, by simp [h]⟩
      | cons d before =>
        simp only [List.cons_append, List.cons.injEq] at h
        exact .inr ⟨before, behind, by simp [h.2]⟩

/-- The two halves and the piece between them make up the text. -/
theorem splitLast?_join {piece text before behind : List Char}
    (h : splitLast? piece text = some (before, behind)) : text = before ++ piece ++ behind := by
  induction text generalizing before behind with
  | nil => simp [splitLast?] at h
  | cons c rest ih =>
    simp only [splitLast?] at h
    split at h
    · rename_i before' behind' found
      simp only [Option.some.injEq, Prod.mk.injEq] at h
      obtain ⟨rfl, rfl⟩ := h
      simp [ih found]
    · split at h
      · rename_i starts
        simp only [Option.some.injEq, Prod.mk.injEq] at h
        obtain ⟨rfl, rfl⟩ := h
        obtain ⟨tail, ht⟩ := List.isPrefixOf_iff_prefix.1 starts
        rw [← ht]
        simp
      · simp at h

end Clearance.Text
