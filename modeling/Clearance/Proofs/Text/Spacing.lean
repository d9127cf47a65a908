import Clearance.Text.Blank
import Mathlib.Data.List.Chain

/-! Texts with single spaces between their words.

Normalizing takes a text apart into its words and puts single spaces between them. What comes out
has the same words (`words_singleSpaced`) and is spaced in every place (`spaced_singleSpaced`);
and a text that is spaced comes out as it went in (`singleSpaced_of_spaced`), also when it was
made in another way, such as by cutting one off (`Spaced.cut`). -/
namespace Clearance.Text

/-- A text whose only blanks are single spaces inside: no space begins or ends it, and no two
stand side by side. -/
structure Spaced (cs : List Char) : Prop where
  plain : ∀ c ∈ cs, isBlank c = true → c = ' '
  start : cs.head? ≠ some ' '
  stop : cs.getLast? ≠ some ' '
  apart : cs.IsChain fun a b => a ≠ ' ' ∨ b ≠ ' '

/-- A text without blanks. -/
def Solid (cs : List Char) : Prop :=
  ∀ c ∈ cs, isBlank c = false

variable {cs w word : List Char} {ws : List (List Char)}

theorem Solid.ne_space (h : Solid cs) {c : Char} (hc : c ∈ cs) : c ≠ ' ' := by
  intro heq
  subst heq
  have hsolid := h ' ' hc
  rw [isBlank_space] at hsolid
  cases hsolid

/-! ## The words of a normalized text -/

theorem wordsFrom_append (hw : Solid w) (word cs : List Char) :
    wordsFrom word (w ++ cs) = wordsFrom (w.reverse ++ word) cs := by
  induction w generalizing word with
  | nil => rfl
  | cons c rest ih =>
    obtain ⟨hc, hrest⟩ := List.forall_mem_cons.mp hw
    rw [List.cons_append, wordsFrom, if_neg (by simp [hc]), ih hrest, List.reverse_cons,
      List.append_assoc, List.singleton_append]

/-- A word that a space follows is the first word. -/
theorem words_append_space (hw : Solid w) (hne : w ≠ []) (cs : List Char) :
    words (w ++ ' ' :: cs) = w :: words cs := by
  rw [words, wordsFrom_append hw, List.append_nil, wordsFrom, if_pos isBlank_space,
    if_neg (by simpa using hne), List.reverse_reverse]
  rfl

theorem words_of_solid (hw : Solid w) (hne : w ≠ []) : words w = [w] := by
  have happend := wordsFrom_append hw [] []
  rw [List.append_nil, List.append_nil] at happend
  rw [words, happend, wordsFrom, if_neg (by simpa using hne), List.reverse_reverse]

theorem words_intercalate (h : ∀ w ∈ ws, w ≠ [] ∧ Solid w) :
    words ([' '].intercalate ws) = ws := by
  induction ws with
  | nil => rfl
  | cons w rest ih =>
    obtain ⟨⟨hne, hw⟩, hrest⟩ := List.forall_mem_cons.mp h
    by_cases hlast : rest = []
    · subst hlast
      rw [List.intercalate_singleton, words_of_solid hw hne]
    · rw [List.intercalate_cons_of_ne_nil hlast, List.append_assoc, List.singleton_append,
        words_append_space hw hne, ih hrest]

/-- Normalizing keeps the words. -/
theorem words_singleSpaced (cs : List Char) : words (singleSpaced cs) = words cs :=
  words_intercalate fun _ hw => mem_words hw

/-! ## Spaced texts -/

theorem Solid.spaced (h : Solid cs) : Spaced cs where
  plain c hc hblank := by
    rw [h c hc] at hblank
    cases hblank
  start hstart := h.ne_space (List.mem_of_head? hstart) rfl
  stop hstop := h.ne_space (List.mem_of_getLast? hstop) rfl
  apart := by
    refine List.Pairwise.isChain (List.pairwise_of_forall_mem_list ?_)
    intro c hc _ _
    exact .inl (h.ne_space hc)

/-- A word and a space may stand in front of a spaced text. -/
theorem Spaced.append_space (hw : Solid w) (hne : w ≠ []) (h : Spaced cs) (hcs : cs ≠ []) :
    Spaced (w ++ ' ' :: cs) where
  plain c hc hblank := by
    rcases List.mem_append.mp hc with hc | hc
    · exact hw.spaced.plain c hc hblank
    · rcases List.mem_cons.mp hc with rfl | hc
      · rfl
      · exact h.plain c hc hblank
  start := by
    rw [List.head?_append_of_ne_nil _ hne]
    exact hw.spaced.start
  stop := by
    rw [List.getLast?_append_of_ne_nil _ (List.cons_ne_nil _ _), List.getLast?_cons_of_ne_nil hcs]
    exact h.stop
  apart := by
    refine List.isChain_append.mpr ⟨hw.spaced.apart, List.isChain_cons.mpr ⟨?_, h.apart⟩, ?_⟩
    · intro c hc
      right
      intro heq
      subst heq
      exact h.start hc
    · intro c hc _ _
      left
      exact hw.ne_space (List.mem_of_getLast? hc)

theorem spaced_intercalate (h : ∀ w ∈ ws, w ≠ [] ∧ Solid w) : Spaced ([' '].intercalate ws) := by
  induction ws with
  | nil => exact Solid.spaced (by simp [Solid])
  | cons w rest ih =>
    obtain ⟨⟨hne, hw⟩, hrest⟩ := List.forall_mem_cons.mp h
    by_cases hlast : rest = []
    · subst hlast
      rw [List.intercalate_singleton]
      exact hw.spaced
    · rw [List.intercalate_cons_of_ne_nil hlast, List.append_assoc, List.singleton_append]
      refine (ih hrest).append_space hw hne ?_
      intro hnil
      have hwords := words_intercalate hrest
      rw [hnil] at hwords
      exact hlast hwords.symm

/-- **What normalizing makes is spaced.** -/
theorem spaced_singleSpaced (cs : List Char) : Spaced (singleSpaced cs) :=
  spaced_intercalate fun _ hw => mem_words hw

/-- A spaced text that is cut off anywhere is spaced again behind a mark. -/
theorem Spaced.cut (h : Spaced cs) (n : Nat) {mark : Char} (hmark : isBlank mark = false) :
    Spaced (cs.take n ++ [mark]) := by
  have hsolid : Solid [mark] := List.forall_mem_singleton.mpr hmark
  have hend := hsolid.spaced
  refine ⟨?_, ?_, ?_, ?_⟩
  · intro c hc hblank
    rcases List.mem_append.mp hc with hc | hc
    · exact h.plain c (List.mem_of_mem_take hc) hblank
    · exact hend.plain c hc hblank
  · by_cases hfront : cs.take n = []
    · rw [hfront]
      exact hend.start
    · rw [List.head?_append_of_ne_nil _ hfront, List.head?_take]
      split
      · simp
      · exact h.start
  · rw [List.getLast?_append_of_ne_nil _ (List.cons_ne_nil _ _)]
    exact hend.stop
  · refine List.isChain_append.mpr ⟨h.apart.take n, hend.apart, ?_⟩
    intro _ _ c hc
    exact .inr (hsolid.ne_space (List.mem_of_head? hc))

/-! ## Normalizing what is normalized -/

/-- The words of a spaced text make it up again. The text goes on with the word that is being
read, so that it may begin with a space only behind one. -/
theorem intercalate_wordsFrom (hplain : ∀ c ∈ cs, isBlank c = true → c = ' ')
    (hstart : word = [] → cs.head? ≠ some ' ') (hstop : cs.getLast? ≠ some ' ')
    (hapart : cs.IsChain fun a b => a ≠ ' ' ∨ b ≠ ' ') :
    [' '].intercalate (wordsFrom word cs) = word.reverse ++ cs := by
  induction cs generalizing word with
  | nil =>
    rw [wordsFrom]
    split
    · rename_i hnil
      rw [List.isEmpty_iff.mp hnil]
      rfl
    · rw [List.intercalate_singleton, List.append_nil]
  | cons c rest ih =>
    obtain ⟨hc, hothers⟩ := List.forall_mem_cons.mp hplain
    obtain ⟨hnext, hbehind⟩ := List.isChain_cons.mp hapart
    have hlast : rest.getLast? ≠ some ' ' := by
      intro heq
      exact hstop (by rw [List.getLast?_cons, heq]; rfl)
    by_cases hblank : isBlank c = true
    · -- a space ends a word, and another word comes behind it
      have hspace := hc hblank
      subst hspace
      have hword : word ≠ [] := fun hnil => hstart hnil rfl
      have hrest : rest ≠ [] := by
        intro hnil
        subst hnil
        exact hstop rfl
      have hfirst : rest.head? ≠ some ' ' := by
        intro heq
        rcases hnext ' ' heq with hne | hne <;> exact hne rfl
      have hmade : [' '].intercalate (wordsFrom [] rest) = rest :=
        ih hothers (fun _ => hfirst) hlast hbehind
      have hwords : wordsFrom [] rest ≠ [] := by
        intro hnil
        rw [hnil] at hmade
        exact hrest hmade.symm
      rw [wordsFrom, if_pos hblank, if_neg (by simpa using hword),
        List.intercalate_cons_of_ne_nil hwords, hmade, List.append_assoc, List.singleton_append]
    · have hgrown : c :: word = [] → rest.head? ≠ some ' ' :=
        fun hnil => absurd hnil (List.cons_ne_nil _ _)
      rw [wordsFrom, if_neg hblank, ih hothers hgrown hlast hbehind, List.reverse_cons,
        List.append_assoc, List.singleton_append]

/-- **A spaced text is left as it is.** -/
theorem singleSpaced_of_spaced (h : Spaced cs) : singleSpaced cs = cs :=
  intercalate_wordsFrom h.plain (fun _ => h.start) h.stop h.apart

end Clearance.Text
