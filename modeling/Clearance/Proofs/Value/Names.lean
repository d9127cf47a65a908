import Clearance.Proofs.Graph.Renaming
import Clearance.Value.Order

/-! Values that are names.

A name is a text, or a value that counts as one. Among names equality and order are
those of their texts, every name can be a key, and every list of names can be
sorted. -/
namespace Clearance.Value

/-- A value that counts as a text. -/
def IsName (v : Value) : Prop :=
  v.text?.isSome

/-- The text of a name. -/
def word (v : Value) : String :=
  v.text?.getD ""

@[simp] theorem isName_text (s : String) : IsName (text s) := rfl

@[simp] theorem word_text (s : String) : word (text s) = s := rfl

theorem text?_eq_some_iff {v : Value} {s : String} : v.text? = some s ↔ v.IsName ∧ v.word = s := by
  unfold IsName word
  cases v.text? <;> simp

theorem IsName.text? {v : Value} (h : v.IsName) : v.text? = some v.word :=
  text?_eq_some_iff.mpr ⟨h, rfl⟩

/-- A name can always be written out. -/
theorem IsName.writable {v : Value} (h : v.IsName) : v.writable = true :=
  writable_of_text? h.text?

theorem isName_cases {v : Value} (h : v.IsName) : (∃ s, v = text s) ∨ ∃ l, v = level l := by
  cases v <;> simp_all [IsName, Value.text?]

/-- A text that is not the name of a log level. -/
def IsText (v : Value) : Prop :=
  ∃ s, v = .text s

/-- Whether a value is such a text. -/
def isText : Value → Bool
  | text _ => true
  | _ => false

theorem isText_iff {v : Value} : v.isText = true ↔ v.IsText := by
  cases v <;> simp [isText, IsText]

theorem isName_of_isText {v : Value} (h : v.IsText) : v.IsName := by
  obtain ⟨s, rfl⟩ := h
  exact isName_text s

theorem eq_text_of_isText {v : Value} (h : v.IsText) : v = .text v.word := by
  obtain ⟨s, rfl⟩ := h
  rfl

/-! ## Equality and order -/

/-- A name equals the names of the same text and nothing else. -/
theorem same_iff_of_isName {a b : Value} (ha : a.IsName) :
    same a b = true ↔ b.text? = some a.word := by
  rcases isName_cases ha with ⟨s, rfl⟩ | ⟨l, rfl⟩ <;>
    cases b <;> simp [same, equal?, sameLeaf, number?, Value.text?, word]
  all_goals exact eq_comm

theorem same_iff_of_isName_right {a b : Value} (hb : b.IsName) :
    same a b = true ↔ a.text? = some b.word := by
  rcases isName_cases hb with ⟨s, rfl⟩ | ⟨l, rfl⟩ <;>
    cases a <;> simp [same, equal?, sameLeaf, number?, Value.text?, word]

theorem same_of_names {a b : Value} (ha : a.IsName) (hb : b.IsName) :
    same a b = (a.word == b.word) := by
  rw [Bool.eq_iff_iff, same_iff_of_isName ha, hb.text?, Option.some.injEq, beq_iff_eq]
  exact eq_comm

theorem same_null_iff {v : Value} : same null v = true ↔ v = .null := by
  cases v <;> simp [same, equal?, sameLeaf, number?, Value.text?]

theorem same_null_iff_right {v : Value} : same v null = true ↔ v = .null := by
  cases v <;> simp [same, equal?, sameLeaf, number?, Value.text?]

theorem order_of_names {a b : Value} (ha : a.IsName) (hb : b.IsName) :
    order a b = compare a.word b.word := by
  rcases isName_cases ha with ⟨s, rfl⟩ | ⟨l, rfl⟩ <;>
    rcases isName_cases hb with ⟨t, rfl⟩ | ⟨m, rfl⟩ <;>
    simp [order, orderLeaves, number?, Value.text?, word]

/-- Reading names as their texts keeps order and equality. -/
theorem faithful_word : Faithful word IsName where
  compare ha hb := (order_of_names ha hb).symm
  beq ha hb := by rw [beq_eq_same, same_of_names ha hb]

/-- A list holds a name exactly when it holds its text. -/
theorem memberOf_iff {v : Value} (hv : v.IsName) {items : List Value} :
    memberOf v items = true ↔ ∃ w ∈ items, w.text? = some v.word := by
  simp only [memberOf, List.any_eq_true, same_iff_of_isName hv]

theorem mem_map_word {items : List Value} (h : ∀ v ∈ items, v.IsName) {s : String} :
    s ∈ items.map word ↔ ∃ v ∈ items, v.text? = some s := by
  rw [List.mem_map]
  constructor
  · rintro ⟨v, hv, rfl⟩
    exact ⟨v, hv, (h v hv).text?⟩
  · rintro ⟨v, hv, hs⟩
    exact ⟨v, hv, (text?_eq_some_iff.mp hs).2⟩

/-! ## Keys -/

theorem hashable_of_isName {v : Value} (h : v.IsName) : hashable v = true := by
  rcases isName_cases h with ⟨s, rfl⟩ | ⟨l, rfl⟩ <;> rfl

theorem allHashable_of_names {items : List Value} (h : ∀ v ∈ items, v.IsName) :
    allHashable items = true := by
  induction items with
  | nil => rfl
  | cons v rest ih =>
    rw [List.forall_mem_cons] at h
    simp [allHashable, hashable_of_isName h.1, ih h.2]

/-! ## Lists without duplicates -/

section FirstOccurrences

variable {α : Type} [BEq α] [LawfulBEq α]

theorem nodup_eraseDups (xs : List α) : xs.eraseDups.Nodup := by
  match xs with
  | [] => simp
  | x :: rest =>
    rw [List.eraseDups_cons, List.nodup_cons]
    exact ⟨by simp [List.mem_eraseDups], nodup_eraseDups (rest.filter fun y => !y == x)⟩
termination_by xs.length
decreasing_by
  exact Nat.lt_succ_of_le (List.length_filter_le _ _)

theorem eraseDups_of_nodup {xs : List α} (h : xs.Nodup) : xs.eraseDups = xs := by
  induction xs with
  | nil => rfl
  | cons x rest ih =>
    rw [List.nodup_cons] at h
    have hfilter : (rest.filter fun y => !y == x) = rest := by
      rw [List.filter_eq_self]
      intro y hy
      have hne : y ≠ x := fun heq => h.1 (heq ▸ hy)
      simp [hne]
    rw [List.eraseDups_cons, hfilter, ih h.2]

/-- Duplicates within the front do not show in what comes first. -/
theorem eraseDups_append_eraseDups (xs ys : List α) :
    (xs.eraseDups ++ ys).eraseDups = (xs ++ ys).eraseDups := by
  have hremove : ys.removeAll xs.eraseDups = ys.removeAll xs := by
    refine List.filter_congr fun y _ => ?_
    rw [Bool.eq_iff_iff]
    simp [List.mem_eraseDups]
  rw [List.eraseDups_append, List.eraseDups_append, eraseDups_of_nodup (nodup_eraseDups xs),
    hremove]

/-- What is left out may be left out before or after duplicates are dropped. -/
theorem eraseDups_filter (p : α → Bool) (xs : List α) :
    (xs.filter p).eraseDups = xs.eraseDups.filter p := by
  match xs with
  | [] => rfl
  | x :: rest =>
    have ih := eraseDups_filter p (rest.filter fun y => !y == x)
    rw [List.filter_filter] at ih
    rw [List.eraseDups_cons, List.filter_cons, List.filter_cons, ← ih]
    split
    · rw [List.eraseDups_cons, List.filter_filter]
      simp only [Bool.and_comm]
    · -- a member that stays is not equal to one that is left out
      rename_i hout
      refine congrArg List.eraseDups (List.filter_congr fun y _ => ?_)
      by_cases hy : y = x
      · subst hy
        simp [hout]
      · simp [hy]
termination_by xs.length
decreasing_by
  exact Nat.lt_succ_of_le (List.length_filter_le _ _)

/-- Duplicates within the rest do not show in what comes first. -/
theorem eraseDups_append_eraseDups_right (xs ys : List α) :
    (xs ++ ys.eraseDups).eraseDups = (xs ++ ys).eraseDups := by
  rw [List.eraseDups_append, List.eraseDups_append, List.removeAll, List.removeAll,
    eraseDups_filter, eraseDups_filter, eraseDups_of_nodup (nodup_eraseDups ys)]

/-- A map that tells the members of a list apart commutes with dropping duplicates. -/
theorem eraseDups_map {β : Type} [BEq β] [LawfulBEq β] {f : α → β} {xs : List α}
    (h : Set.InjOn f {x | x ∈ xs}) : (xs.map f).eraseDups = xs.eraseDups.map f := by
  match xs with
  | [] => rfl
  | x :: rest =>
    have hkept : ∀ y ∈ rest.filter (fun y => !y == x), y ∈ x :: rest :=
      fun y hy => List.mem_cons_of_mem x (List.mem_of_mem_filter hy)
    have ih := eraseDups_map (h.mono hkept)
    -- what is dropped behind the first member are its own occurrences on either side
    have hfilter : (rest.map f).filter (fun z => !z == f x) =
        (rest.filter fun y => !y == x).map f := by
      rw [List.filter_map]
      refine congrArg (List.map f) (List.filter_congr ?_)
      intro y hy
      have heq : f y = f x ↔ y = x :=
        h.eq_iff (List.mem_cons_of_mem x hy) List.mem_cons_self
      rw [Function.comp_apply, Bool.eq_iff_iff]
      simp [heq]
    rw [List.map_cons, List.eraseDups_cons, hfilter, ih, List.eraseDups_cons, List.map_cons]
termination_by xs.length
decreasing_by
  exact Nat.lt_succ_of_le (List.length_filter_le _ _)

end FirstOccurrences

theorem distinctFrom_sublist (seen items : List Value) :
    (distinctFrom seen items).Sublist items := by
  induction items generalizing seen with
  | nil => exact List.Sublist.refl _
  | cons v rest ih =>
    simp only [distinctFrom]
    split
    · exact (ih seen).cons v
    · exact (ih (v :: seen)).cons_cons v

/-- What was kept of the front counts as seen behind it. -/
theorem distinctFrom_append (seen xs ys : List Value) : distinctFrom seen (xs ++ ys) =
    distinctFrom seen xs ++ distinctFrom ((distinctFrom seen xs).reverse ++ seen) ys := by
  induction xs generalizing seen with
  | nil => rfl
  | cons x rest ih =>
    rw [List.cons_append, distinctFrom, distinctFrom]
    split
    · exact ih seen
    · rw [ih, List.reverse_cons, List.append_assoc]
      rfl

theorem distinct_append (xs ys : List Value) :
    distinct (xs ++ ys) = distinct xs ++ distinctFrom (distinct xs).reverse ys := by
  rw [distinct, distinctFrom_append, List.append_nil]
  rfl

/-- Nothing is kept that was seen before. -/
theorem distinctFrom_eq_nil {seen items : List Value}
    (h : ∀ v ∈ items, memberOf v seen = true) : distinctFrom seen items = [] := by
  induction items with
  | nil => rfl
  | cons v rest ih =>
    rw [List.forall_mem_cons] at h
    rw [distinctFrom, if_pos h.1]
    exact ih h.2

theorem isName_of_mem_distinct {items : List Value} (h : ∀ v ∈ items, v.IsName) :
    ∀ v ∈ distinct items, v.IsName :=
  fun v hv => h v ((distinctFrom_sublist [] items).subset hv)

/-- What is kept are the first occurrences of the texts that were not seen before. -/
theorem map_word_distinctFrom {seen items : List Value} (hseen : ∀ v ∈ seen, v.IsName)
    (h : ∀ v ∈ items, v.IsName) : (distinctFrom seen items).map word =
      ((items.map word).filter fun s => s ∉ seen.map word).eraseDups := by
  induction items generalizing seen with
  | nil => rfl
  | cons v rest ih =>
    rw [List.forall_mem_cons] at h
    have hmem : memberOf v seen = true ↔ v.word ∈ seen.map word := by
      rw [memberOf_iff h.1, mem_map_word hseen]
    simp only [distinctFrom]
    split
    · rename_i hin
      rw [ih hseen h.2, List.map_cons, List.filter_cons_of_neg (by simp [hmem.mp hin])]
    · rename_i hout
      have hnew : v.word ∉ seen.map word := mt hmem.mpr hout
      have hfront : ((v :: rest).map word).filter (fun s => s ∉ seen.map word) =
          v.word :: (rest.map word).filter fun s => s ∉ seen.map word :=
        List.filter_cons_of_pos (decide_eq_true hnew)
      rw [List.map_cons, ih (List.forall_mem_cons.mpr ⟨h.1, hseen⟩) h.2, hfront,
        List.eraseDups_cons, List.filter_filter]
      -- behind the first member its own text counts as seen
      refine congrArg (fun words => v.word :: List.eraseDups words) (List.filter_congr ?_)
      intro s _
      simp only [List.map_cons, List.mem_cons, not_or, Bool.decide_and, decide_not,
        beq_eq_decide]

/-- Dropping duplicates keeps the first occurrence of every text. -/
theorem map_word_distinct {items : List Value} (h : ∀ v ∈ items, v.IsName) :
    (distinct items).map word = (items.map word).eraseDups := by
  rw [distinct, map_word_distinctFrom (by simp) h]
  simp

theorem mem_map_word_distinct {items : List Value} (h : ∀ v ∈ items, v.IsName) {s : String} :
    s ∈ (distinct items).map word ↔ s ∈ items.map word := by
  rw [map_word_distinct h, List.mem_eraseDups]

theorem nodup_map_word_distinct {items : List Value} (h : ∀ v ∈ items, v.IsName) :
    ((distinct items).map word).Nodup := by
  rw [map_word_distinct h]
  exact nodup_eraseDups _

/-- Nothing is dropped from a list without duplicates. -/
theorem distinct_of_nodup_word {items : List Value} (h : ∀ v ∈ items, v.IsName)
    (hnodup : (items.map word).Nodup) : distinct items = items := by
  have hlength := congrArg List.length ((map_word_distinct h).trans (eraseDups_of_nodup hnodup))
  rw [List.length_map, List.length_map] at hlength
  exact (distinctFrom_sublist [] items).eq_of_length hlength

/-- Nothing is kept behind a list without duplicates that it lists already. -/
theorem distinct_append_of_subset {xs ys : List Value} (hx : ∀ v ∈ xs, v.IsName)
    (hy : ∀ v ∈ ys, v.IsName) (hnodup : (xs.map word).Nodup) (h : ys.map word ⊆ xs.map word) :
    distinct (xs ++ ys) = xs := by
  have hseen : ∀ v ∈ ys, memberOf v xs.reverse = true := by
    intro v hv
    rw [memberOf_iff (hy v hv), ← mem_map_word fun w hw => hx w (List.mem_reverse.mp hw),
      List.map_reverse, List.mem_reverse]
    exact h (List.mem_map_of_mem hv)
  rw [distinct_append, distinct_of_nodup_word hx hnodup, distinctFrom_eq_nil hseen,
    List.append_nil]

/-- What is kept after fewer members were seen is all that may be kept after more. -/
theorem distinctFrom_distinctFrom {seen earlier items : List Value}
    (hseen : ∀ v ∈ seen, v.IsName) (hearlier : ∀ v ∈ earlier, v.IsName)
    (h : ∀ v ∈ items, v.IsName) (hsub : earlier.map word ⊆ seen.map word) :
    distinctFrom seen (distinctFrom earlier items) = distinctFrom seen items := by
  induction items generalizing seen earlier with
  | nil => rfl
  | cons v rest ih =>
    rw [List.forall_mem_cons] at h
    have hmore : ∀ {names : List Value}, (∀ w ∈ names, w.IsName) → ∀ w ∈ v :: names, w.IsName :=
      fun hnames => List.forall_mem_cons.mpr ⟨h.1, hnames⟩
    by_cases hin : memberOf v earlier = true
    · have hold : memberOf v seen = true := by
        rw [memberOf_iff h.1, ← mem_map_word hearlier] at hin
        rw [memberOf_iff h.1, ← mem_map_word hseen]
        exact hsub hin
      rw [distinctFrom, if_pos hin, ih hseen hearlier h.2 hsub, distinctFrom, if_pos hold]
    · rw [distinctFrom, if_neg hin, distinctFrom, distinctFrom]
      by_cases hold : memberOf v seen = true
      · -- what was seen holds the text of this member already
        have hword : v.word ∈ seen.map word := by
          rwa [memberOf_iff h.1, ← mem_map_word hseen] at hold
        rw [if_pos hold, if_pos hold]
        exact ih hseen (hmore hearlier) h.2 (List.cons_subset.mpr ⟨hword, hsub⟩)
      · rw [if_neg hold, if_neg hold, ih (hmore hseen) (hmore hearlier) h.2
          (List.cons_subset_cons _ hsub)]

/-- Duplicates may be dropped from the front before those of the whole list are. -/
theorem distinct_distinct_append {xs : List Value} (h : ∀ v ∈ xs, v.IsName) (ys : List Value) :
    distinct (distinct xs ++ ys) = distinct (xs ++ ys) := by
  rw [distinct_append, distinct_append xs,
    distinct_of_nodup_word (isName_of_mem_distinct h) (nodup_map_word_distinct h)]

/-- Duplicates may be dropped behind a front before those of the whole list are. -/
theorem distinct_append_distinct {xs ys : List Value} (hx : ∀ v ∈ xs, v.IsName)
    (hy : ∀ v ∈ ys, v.IsName) : distinct (xs ++ distinct ys) = distinct (xs ++ ys) := by
  have hseen : ∀ v ∈ (distinct xs).reverse, v.IsName :=
    fun v hv => isName_of_mem_distinct hx v (List.mem_reverse.mp hv)
  rw [distinct_append, distinct_append]
  exact congrArg _ (distinctFrom_distinctFrom hseen (by simp) hy (by simp))

/-! ## Sorting -/

theorem comparable_of_names {items : List Value} (h : ∀ v ∈ items, v.IsName) :
    comparable items = true := by
  have hall : items.all (·.text?.isSome) = true := List.all_eq_true.mpr h
  simp [comparable, hall]

theorem staysBefore_of_names {a b : Value} (ha : a.IsName) (hb : b.IsName) :
    staysBefore a b = (compare a.word b.word != .gt) := by
  have hnumber : a.number? = none := by
    rcases isName_cases ha with ⟨s, rfl⟩ | ⟨l, rfl⟩ <;> rfl
  rw [← order_of_names ha hb]
  simp [staysBefore, hnumber]

/-- Names are in strictly ascending order when their texts are. -/
theorem strict_of_map_word {items : List Value} (h : ∀ v ∈ items, v.IsName)
    (hstrict : Ascending.Strict (items.map word)) : Ascending.Strict items := by
  refine (List.pairwise_map.mp hstrict).imp_of_mem ?_
  intro v w hv hw hlt
  exact (order_of_names (h v hv) (h w hw)).trans hlt

/-- Texts in ascending order. -/
def sortedWords (words : List String) : List String :=
  words.mergeSort fun s t => compare s t != .gt

theorem strict_sortedWords {words : List String} (h : words.Nodup) :
    Ascending.Strict (sortedWords words) := by
  have hperm : (sortedWords words).Perm words := List.mergeSort_perm _ _
  have hle : (sortedWords words).Pairwise fun s t => (compare s t != .gt) = true := by
    refine List.pairwise_mergeSort ?_ ?_ words
    · intro a b c hab hbc
      rw [bne_iff_ne] at hab hbc ⊢
      exact Ordering.ne_gt_iff_isLE.mpr (Std.TransCmp.isLE_trans
        (Ordering.ne_gt_iff_isLE.mp hab) (Ordering.ne_gt_iff_isLE.mp hbc))
    · intro a b
      rw [Bool.or_eq_true, bne_iff_ne, bne_iff_ne]
      by_contra hboth
      rw [not_or, not_not, not_not] at hboth
      exact Std.OrientedCmp.not_gt_of_gt hboth.1 hboth.2
  have hne : (sortedWords words).Nodup := hperm.nodup_iff.mpr h
  refine (hle.and hne).imp ?_
  rintro a b ⟨hab, hdiff⟩
  cases hcmp : compare a b with
  | lt => rfl
  | eq => exact absurd (Std.LawfulEqOrd.eq_of_compare hcmp) hdiff
  | gt => simp [hcmp] at hab

/-- A list of names can be sorted; the result is in the order of the texts. -/
theorem sort?_of_names {items : List Value} (h : ∀ v ∈ items, v.IsName) :
    ∃ sorted, sort? items = some sorted ∧ sorted.Perm items ∧
      sorted.map word = sortedWords (items.map word) := by
  refine ⟨items.mergeSort staysBefore, by simp [sort?, comparable_of_names h],
    List.mergeSort_perm _ _, ?_⟩
  refine List.map_mergeSort ?_
  intro a ha b hb
  exact staysBefore_of_names (h a ha) (h b hb)

/-- A list of names in ascending order is sorted already. -/
theorem sort?_of_strict {items : List Value} (h : ∀ v ∈ items, v.IsName)
    (hstrict : Ascending.Strict (items.map word)) : sort? items = some items := by
  have hpairs : items.Pairwise fun v w => staysBefore v w = true := by
    refine (List.pairwise_map.mp hstrict).imp_of_mem fun {v w} hv hw hlt => ?_
    rw [staysBefore_of_names (h v hv) (h w hw), hlt]
    rfl
  simp [sort?, comparable_of_names h, List.mergeSort_of_pairwise hpairs]

end Clearance.Value
