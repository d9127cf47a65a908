/-! White space: which characters are blank, and the words between them.

The set holds the ASCII blanks and separators U+001C to U+001F, U+0085 and
the Unicode space and line separators. Zero-width characters are not blank. -/
namespace Clearance.Text

/-- The blank characters. -/
def isBlank (c : Char) : Bool :=
  (0x09 ≤ c.toNat && c.toNat ≤ 0x0d) || (0x1c ≤ c.toNat && c.toNat ≤ 0x20) ||
    (0x2000 ≤ c.toNat && c.toNat ≤ 0x200a) ||
    [0x85, 0xa0, 0x1680, 0x2028, 0x2029, 0x202f, 0x205f, 0x3000].contains c.toNat

/-- A text that holds nothing but blanks. -/
def isBlankText (s : String) : Bool :=
  s.toList.all isBlank

/-- The maximal runs of non-blank characters, in order. The first argument is
the word being read, in reverse. -/
def wordsFrom (word : List Char) : List Char → List (List Char)
  | [] => if word.isEmpty then [] else [word.reverse]
  | c :: rest =>
    if isBlank c then
      if word.isEmpty then wordsFrom [] rest else word.reverse :: wordsFrom [] rest
    else wordsFrom (c :: word) rest

/-- The words of a text. -/
def words (cs : List Char) : List (List Char) :=
  wordsFrom [] cs

/-- The words of a text with single spaces between them. -/
def singleSpaced (cs : List Char) : List Char :=
  [' '].intercalate (words cs)

theorem mem_wordsFrom {w cs word : List Char} (h : w ∈ wordsFrom word cs)
    (hword : ∀ c ∈ word, isBlank c = false) : w ≠ [] ∧ ∀ c ∈ w, isBlank c = false := by
  induction cs generalizing word with
  | nil =>
    by_cases hnil : word = []
    · simp [wordsFrom, hnil] at h
    · have heq : w = word.reverse := by simpa [wordsFrom, hnil] using h
      subst heq
      exact ⟨by simpa using hnil, by simpa using hword⟩
  | cons c rest ih =>
    have hempty : ∀ d ∈ ([] : List Char), isBlank d = false := by simp
    by_cases hblank : isBlank c = true
    · by_cases hnil : word = []
      · have htail : w ∈ wordsFrom [] rest := by simpa [wordsFrom, hblank, hnil] using h
        exact ih htail hempty
      · have hcases : w = word.reverse ∨ w ∈ wordsFrom [] rest := by
          simpa [wordsFrom, hblank, hnil] using h
        rcases hcases with heq | htail
        · subst heq
          exact ⟨by simpa using hnil, by simpa using hword⟩
        · exact ih htail hempty
    · have hsolid : isBlank c = false := by simpa using hblank
      have htail : w ∈ wordsFrom (c :: word) rest := by simpa [wordsFrom, hsolid] using h
      refine ih htail ?_
      intro d hd
      rcases List.mem_cons.mp hd with rfl | hmem
      · exact hsolid
      · exact hword d hmem

/-- A word is not empty and holds no blank. -/
theorem mem_words {w cs : List Char} (h : w ∈ words cs) :
    w ≠ [] ∧ ∀ c ∈ w, isBlank c = false :=
  mem_wordsFrom h (by simp)

theorem isBlank_space : isBlank ' ' = true := by decide

/-- Every white-space character of ASCII is blank. -/
theorem isBlank_of_isWhitespace {c : Char} (h : c.isWhitespace = true) : isBlank c = true := by
  simp only [Char.isWhitespace, Bool.or_eq_true, decide_eq_true_eq] at h
  rcases h with ((rfl | rfl) | rfl) | rfl <;> decide

end Clearance.Text
