import Clearance.Json.Reading
import Mathlib.Data.Char
import Mathlib.Tactic.Common

/-! What is written as JSON is read back.

Characters are escaped one by one, so reading a quoted text is an induction over its
characters (`readQuoted_quoted`). Values other than numbers end where they say they end,
whatever stands behind them, so reading a tree is an induction over the tree
(`readValue_render`). Two trees with one text are therefore one tree
(`eq_of_render_eq`). -/
namespace Clearance.Json

/-! ## Units of sixteen bits -/

theorem digitIn?_digitChar {d : Nat} (h : d < 16) :
    Decimal.digitIn? 16 d.digitChar = some d := by
  have hall : ∀ d < 16, Decimal.digitIn? 16 d.digitChar = some d := by decide
  exact hall d h

theorem hex_four {n : Nat} (h : n < 0x10000) :
    Text.hex 4 n = [(n / 4096).digitChar, (n / 256 % 16).digitChar, (n / 16 % 16).digitChar,
      (n % 16).digitChar] := by
  have hzero : ∀ {m : Nat}, m < 16 → Nat.toDigits 16 m = [m.digitChar] :=
    fun hm => Nat.toDigits_of_lt_base hm
  have hstep : ∀ {m : Nat}, 16 ≤ m →
      Nat.toDigits 16 m = Nat.toDigits 16 (m / 16) ++ [(m % 16).digitChar] :=
    fun hm => Nat.toDigits_of_base_le (by omega) hm
  unfold Text.hex
  -- a shorter number is padded with the digit that its missing quotients have
  by_cases h1 : n < 16
  · have hq : n / 4096 = 0 ∧ n / 256 % 16 = 0 ∧ n / 16 % 16 = 0 ∧ n % 16 = n := by omega
    rw [hzero h1, hq.1, hq.2.1, hq.2.2.1, hq.2.2.2]
    rfl
  · rw [hstep (by omega)]
    by_cases h2 : n < 256
    · have hq : n / 4096 = 0 ∧ n / 256 % 16 = 0 ∧ n / 16 % 16 = n / 16 := by omega
      rw [hzero (by omega), hq.1, hq.2.1, hq.2.2]
      rfl
    · rw [hstep (by omega), Nat.div_div_eq_div_mul]
      by_cases h3 : n < 4096
      · have hq : n / 4096 = 0 ∧ n / 256 % 16 = n / 256 := by omega
        rw [hzero (by omega), hq.1, hq.2]
        rfl
      · rw [hstep (by omega), Nat.div_div_eq_div_mul, hzero (by omega)]
        rfl

theorem unit?_hex {n : Nat} (h : n < 0x10000) (rest : List Char) :
    unit? (Text.hex 4 n ++ rest) = some n := by
  have hvalue : ((n / 4096 * 16 + n / 256 % 16) * 16 + n / 16 % 16) * 16 + n % 16 = n := by omega
  have h1 : n / 4096 < 16 := by omega
  have h2 : n / 256 % 16 < 16 := by omega
  have h3 : n / 16 % 16 < 16 := by omega
  have h4 : n % 16 < 16 := by omega
  rw [hex_four h]
  simp [unit?, Decimal.readNat?, digitIn?_digitChar h1, digitIn?_digitChar h2,
    digitIn?_digitChar h3, digitIn?_digitChar h4, hvalue]

theorem drop_hex {n : Nat} (h : n < 0x10000) (rest : List Char) :
    (Text.hex 4 n ++ rest).drop 4 = rest := by
  rw [hex_four h]
  rfl

/-! ## Characters -/

theorem ofCode_toNat (c : Char) : Text.ofCode c.toNat = c := by
  have hvalid : c.toNat.isValidChar := c.valid
  unfold Text.ofCode
  rw [if_pos hvalid, Char.ofNat_toNat]

/-- A character is never one half of a pair. -/
theorem ofPair?_toNat (c : Char) (low : Nat) : Text.ofPair? c.toNat low = none := by
  have hvalid : c.toNat < 0xd800 ∨ 0xdfff < c.toNat ∧ c.toNat < 0x110000 := c.valid
  unfold Text.ofPair?
  rw [if_neg]
  simp only [Bool.and_eq_true, decide_eq_true_eq]
  omega

/-- A character beyond sixteen bits is the pair of its halves. -/
theorem ofPair?_halves {c : Char} (h : 0x10000 ≤ c.toNat) :
    Text.ofPair? (0xd800 + (c.toNat - 0x10000) / 0x400) (0xdc00 + (c.toNat - 0x10000) % 0x400) =
      some c := by
  have hvalid : c.toNat < 0xd800 ∨ 0xdfff < c.toNat ∧ c.toNat < 0x110000 := c.valid
  have hcode : 0x10000 + (0xd800 + (c.toNat - 0x10000) / 0x400 - 0xd800) * 0x400 +
      (0xdc00 + (c.toNat - 0x10000) % 0x400 - 0xdc00) = c.toNat := by omega
  unfold Text.ofPair?
  rw [if_pos, hcode, ofCode_toNat]
  simp only [Bool.and_eq_true, decide_eq_true_eq]
  omega

/-- A letter behind a backslash. -/
theorem readQuoted_letter {letter c : Char} (hu : letter ≠ 'u')
    (hletter : simpleEscape? letter = some c) (fuel : Nat) (rest : List Char) :
    readQuoted (fuel + 1) ('\\' :: letter :: rest) =
      (readQuoted fuel rest).map fun p => (c :: p.1, p.2) := by
  rw [readQuoted.eq_5 _ _ _ hu, hletter, Option.map_eq_bind]
  rfl

theorem unit_append (n : Nat) (rest : List Char) :
    unit n ++ rest = '\\' :: 'u' :: (Text.hex 4 n ++ rest) := rfl

/-- A character of sixteen bits by its number. -/
theorem readQuoted_unit {c : Char} (h : c.toNat < 0x10000) (fuel : Nat) (rest : List Char) :
    readQuoted (fuel + 1) (unit c.toNat ++ rest) =
      (readQuoted fuel rest).map fun p => (c :: p.1, p.2) := by
  rw [unit_append, readQuoted, unit?_hex h, drop_hex h]
  simp only [Option.bind_eq_bind, Option.bind_some, ofPair?_toNat, Option.map_eq_bind]
  -- whatever follows, it is not the other half of a pair
  split <;> simp only [Option.bind_fun_none, Option.isSome_none, Bool.false_eq_true, if_false,
    Option.getD_none, ofCode_toNat] <;> rfl

/-- A character beyond sixteen bits by its halves. -/
theorem readQuoted_halves {c : Char} (h : 0x10000 ≤ c.toNat) (fuel : Nat) (rest : List Char) :
    readQuoted (fuel + 1) (unit (0xd800 + (c.toNat - 0x10000) / 0x400) ++
        unit (0xdc00 + (c.toNat - 0x10000) % 0x400) ++ rest) =
      (readQuoted fuel rest).map fun p => (c :: p.1, p.2) := by
  have hvalid : c.toNat < 0xd800 ∨ 0xdfff < c.toNat ∧ c.toNat < 0x110000 := c.valid
  have hhigh : 0xd800 + (c.toNat - 0x10000) / 0x400 < 0x10000 := by omega
  have hlow : 0xdc00 + (c.toNat - 0x10000) % 0x400 < 0x10000 := by omega
  have hpair := ofPair?_halves h
  generalize 0xd800 + (c.toNat - 0x10000) / 0x400 = high at hhigh hpair ⊢
  generalize 0xdc00 + (c.toNat - 0x10000) % 0x400 = low at hlow hpair ⊢
  rw [List.append_assoc, unit_append, readQuoted, unit?_hex hhigh, drop_hex hhigh, unit_append]
  simp only [Option.bind_eq_bind, Option.bind_some, unit?_hex hlow, hpair, Option.map_eq_bind,
    Option.isSome_some, if_true, List.drop_succ_cons, drop_hex hlow]
  rfl

/-- Reading one escaped character. -/
theorem readQuoted_escaped (ascii : Bool) (c : Char) (fuel : Nat) (rest : List Char) :
    readQuoted (fuel + 1) (escaped ascii c ++ rest) =
      (readQuoted fuel rest).map fun p => (c :: p.1, p.2) := by
  unfold escaped
  -- seven characters have letters of their own; the rest stands for itself or as numbers
  split
  · subst c
    exact readQuoted_letter (by decide) rfl fuel rest
  rename_i hquote
  split
  · subst c
    exact readQuoted_letter (by decide) rfl fuel rest
  rename_i hslash
  split
  · subst c
    exact readQuoted_letter (by decide) rfl fuel rest
  split
  · subst c
    exact readQuoted_letter (by decide) rfl fuel rest
  split
  · subst c
    exact readQuoted_letter (by decide) rfl fuel rest
  split
  · subst c
    exact readQuoted_letter (by decide) rfl fuel rest
  split
  · subst c
    exact readQuoted_letter (by decide) rfl fuel rest
  split
  · unfold units
    dsimp only
    split
    · rename_i hshort
      exact readQuoted_unit hshort fuel rest
    · rename_i hlong
      exact readQuoted_halves (by omega) fuel rest
  · rw [List.singleton_append, readQuoted.eq_6 _ _ _ hquote (fun _ h => absurd h hslash)
      (fun _ _ h => absurd h hslash)]
    cases readQuoted fuel rest <;> rfl

theorem length_pos_escaped (ascii : Bool) (c : Char) : 0 < (escaped ascii c).length := by
  refine List.length_pos_iff.mpr ?_
  intro h
  have := readQuoted_escaped ascii c 1 ['"']
  rw [h] at this
  cases this

/-- **Reading a quoted text.** -/
theorem readQuoted_quoted (ascii : Bool) (cs : List Char) (rest : List Char) {fuel : Nat}
    (h : cs.length < fuel) :
    readQuoted fuel (cs.flatMap (escaped ascii) ++ '"' :: rest) = some (cs, rest) := by
  induction cs generalizing fuel with
  | nil =>
    obtain ⟨fuel, rfl⟩ := Nat.exists_eq_succ_of_ne_zero (Nat.ne_of_gt h)
    rfl
  | cons c cs ih =>
    obtain ⟨fuel, rfl⟩ := Nat.exists_eq_succ_of_ne_zero (Nat.ne_of_gt (Nat.zero_lt_of_lt h))
    rw [List.length_cons] at h
    rw [List.flatMap_cons, List.append_assoc, readQuoted_escaped, ih (by omega)]
    rfl

/-! ## Trees -/

mutual

/-- Whether a tree is recovered from its text: it holds no number, for every other value shows
where it ends, and no half of a character. -/
def recoverable : Json → Bool
  | int _ => false
  | float _ => false
  | loose _ => false
  | array items => allRecoverable items
  | object fields => fieldsRecoverable fields
  | _ => true

/-- Whether all trees of a list are recovered. -/
def allRecoverable : List Json → Bool
  | [] => true
  | x :: rest => recoverable x && allRecoverable rest

/-- Whether the trees of all fields are recovered. -/
def fieldsRecoverable : List (String × Json) → Bool
  | [] => true
  | (_, x) :: rest => recoverable x && fieldsRecoverable rest

end

theorem skipSpace_cons {c : Char} (h : c ∉ [' ', '\t', '\n', '\r']) (cs : List Char) :
    skipSpace (c :: cs) = c :: cs := by
  simp only [List.mem_cons, List.not_mem_nil, or_false, not_or] at h
  simp [skipSpace, h]

/-- A tree starts with a character that is no blank and closes no array. -/
theorem render_head {j : Json} (h : j.recoverable = true) :
    ∃ c cs, render compact j = c :: cs ∧ c ∉ [' ', '\t', '\n', '\r'] ∧ c ≠ ']' := by
  cases j with
  | null => exact ⟨_, _, rfl, by decide, by decide⟩
  | bool b => cases b <;> exact ⟨_, _, rfl, by decide, by decide⟩
  | int n => cases h
  | float x => cases h
  | loose t => cases h
  | text s => exact ⟨_, _, rfl, by decide, by decide⟩
  | array items => exact ⟨_, _, rfl, by decide, by decide⟩
  | object fields => exact ⟨_, _, rfl, by decide, by decide⟩

/-- Reading a quoted text with as much fuel as there are characters. -/
theorem readQuoted_text (s : String) (rest : List Char) :
    readQuoted ((s.toList.flatMap (escaped true) ++ '"' :: rest).length + 1)
      (s.toList.flatMap (escaped true) ++ '"' :: rest) = some (s.toList, rest) := by
  have hlength : ∀ cs : List Char, cs.length ≤ (cs.flatMap (escaped true)).length := by
    intro cs
    induction cs with
    | nil => simp
    | cons c cs ih =>
      have := length_pos_escaped true c
      rw [List.flatMap_cons, List.length_append, List.length_cons]
      omega
  have := hlength s.toList
  refine readQuoted_quoted true s.toList rest ?_
  rw [List.length_append]
  omega

theorem readValue_quote (fuel : Nat) (rest : List Char) :
    readValue (fuel + 1) ('"' :: rest) =
      (readQuoted (rest.length + 1) rest).map fun p => (text (String.ofList p.1), p.2) := by
  rw [readValue, skipSpace_cons (by decide), Option.map_eq_bind]
  rfl

/-- An array that is not closed at once has items. -/
theorem readValue_bracket (fuel : Nat) {c : Char} (hblank : c ∉ [' ', '\t', '\n', '\r'])
    (hclose : c ≠ ']') (rest : List Char) :
    readValue (fuel + 1) ('[' :: c :: rest) =
      (readItems fuel (c :: rest)).map fun p => (array p.1, p.2) := by
  simp only [readValue, skipSpace_cons (show '[' ∉ [' ', '\t', '\n', '\r'] by decide),
    skipSpace_cons hblank, Option.map_eq_bind]
  split
  · rename_i heq
    exact absurd (List.cons.inj heq).1 hclose
  · rfl

/-- An object that is not closed at once has fields. -/
theorem readValue_brace (fuel : Nat) (rest : List Char) :
    readValue (fuel + 1) ('\x7b' :: '"' :: rest) =
      (readFields fuel ('"' :: rest)).map fun p => (object p.1, p.2) := by
  simp only [readValue, skipSpace_cons (show '\x7b' ∉ [' ', '\t', '\n', '\r'] by decide),
    skipSpace_cons (show '"' ∉ [' ', '\t', '\n', '\r'] by decide), Option.map_eq_bind]
  rfl

mutual

/-- **Reading a tree back.** -/
theorem readValue_render : ∀ (j : Json) (fuel : Nat) (rest : List Char),
    j.recoverable = true → sizeOf j ≤ fuel →
      readValue fuel (render compact j ++ rest) = some (j, rest)
  | j, 0, _, _, hsize => by
    cases j <;> simp at hsize
  | null, fuel + 1, rest, _, _ => by
    simp [readValue, render, skipSpace]
  | bool b, fuel + 1, rest, _, _ => by
    cases b <;> simp [readValue, render, skipSpace]
  | int _, _, _, h, _ => by cases h
  | float _, _, _, h, _ => by cases h
  | loose _, _, _, h, _ => by cases h
  | text s, fuel + 1, rest, _, _ => by
    simp only [render, quoted, compact, List.cons_append, List.append_assoc, List.nil_append]
    rw [readValue_quote, readQuoted_text s rest]
    simp
  | array [], fuel + 1, rest, _, _ => by
    simp [readValue, render, renderAll, separated, skipSpace]
  | array (x :: xs), fuel + 1, rest, h, hsize => by
    have hsize' : sizeOf (x :: xs) ≤ fuel := by
      simp only [array.sizeOf_spec] at hsize
      omega
    have hitems := readItems_render (x :: xs) fuel rest (by simp) h hsize'
    -- the first item tells the array from one that is closed at once
    obtain ⟨c, cs, hhead, hblank, hclose⟩ := render_head ((Bool.and_eq_true _ _).mp h).1
    have hstart : ∃ cs', separated [','] (renderAll compact (x :: xs)) = c :: cs' := by
      cases xs with
      | nil => exact ⟨cs, hhead⟩
      | cons y ys => exact ⟨_, congrArg (· ++ [','] ++ separated [','] _) hhead⟩
    obtain ⟨cs', hstart⟩ := hstart
    have hrender : render compact (array (x :: xs)) ++ rest =
        '[' :: (separated [','] (renderAll compact (x :: xs)) ++ ']' :: rest) := by
      simp [render, compact]
    rw [hstart, List.cons_append] at hitems hrender
    rw [hrender, readValue_bracket fuel hblank hclose, hitems]
    rfl
  | object [], fuel + 1, rest, _, _ => by
    simp [readValue, render, renderFields, separated, skipSpace]
  | object ((key, x) :: es), fuel + 1, rest, h, hsize => by
    have hsize' : sizeOf ((key, x) :: es) ≤ fuel := by
      simp only [object.sizeOf_spec] at hsize
      omega
    have hfields := readFields_render ((key, x) :: es) fuel rest (by simp) h hsize'
    have hstart : ∃ cs, separated [','] (renderFields compact ((key, x) :: es)) = '"' :: cs := by
      cases es <;> exact ⟨_, rfl⟩
    obtain ⟨cs, hstart⟩ := hstart
    have hrender : render compact (object ((key, x) :: es)) ++ rest =
        '\x7b' :: (separated [','] (renderFields compact ((key, x) :: es)) ++ '\x7d' :: rest) := by
      simp [render, compact]
    rw [hstart, List.cons_append] at hfields hrender
    rw [hrender, readValue_brace, hfields]
    rfl

/-- Reading the items of an array that has some. -/
theorem readItems_render : ∀ (items : List Json) (fuel : Nat) (rest : List Char),
    items ≠ [] → allRecoverable items = true → sizeOf items ≤ fuel →
      readItems fuel (separated [','] (renderAll compact items) ++ ']' :: rest) =
        some (items, rest)
  | [], _, _, h, _, _ => absurd rfl h
  | _ :: _, 0, _, _, _, hsize => by simp at hsize
  | [x], fuel + 1, rest, _, h, hsize => by
    have hx : x.recoverable = true := ((Bool.and_eq_true _ _).mp h).1
    have hread := readValue_render x fuel (']' :: rest) hx (by
      simp only [List.cons.sizeOf_spec, List.nil.sizeOf_spec] at hsize
      omega)
    simp only [renderAll, separated]
    rw [readItems, hread]
    simp [skipSpace]
  | x :: y :: ys, fuel + 1, rest, _, h, hsize => by
    obtain ⟨hx, hys⟩ := (Bool.and_eq_true _ _).mp h
    have hread := readValue_render x fuel
      (',' :: (separated [','] (renderAll compact (y :: ys)) ++ ']' :: rest)) hx (by
        simp only [List.cons.sizeOf_spec] at hsize
        omega)
    have hitems := readItems_render (y :: ys) fuel rest (by simp) hys (by
      simp only [List.cons.sizeOf_spec] at hsize ⊢
      omega)
    have htext : separated [','] (renderAll compact (x :: y :: ys)) ++ ']' :: rest =
        render compact x ++
          ',' :: (separated [','] (renderAll compact (y :: ys)) ++ ']' :: rest) := by
      simp [renderAll, separated]
    rw [htext, readItems, hread]
    simp [skipSpace, hitems]

/-- Reading the fields of an object that has some. -/
theorem readFields_render : ∀ (fields : List (String × Json)) (fuel : Nat) (rest : List Char),
    fields ≠ [] → fieldsRecoverable fields = true → sizeOf fields ≤ fuel →
      readFields fuel (separated [','] (renderFields compact fields) ++ '\x7d' :: rest) =
        some (fields, rest)
  | [], _, _, h, _, _ => absurd rfl h
  | _ :: _, 0, _, _, _, hsize => by simp at hsize
  | [(key, x)], fuel + 1, rest, _, h, hsize => by
    have hx : x.recoverable = true := ((Bool.and_eq_true _ _).mp h).1
    have hread := readValue_render x fuel ('\x7d' :: rest) hx (by
      simp only [List.cons.sizeOf_spec, List.nil.sizeOf_spec, Prod.mk.sizeOf_spec] at hsize
      omega)
    have htext : separated [','] (renderFields compact [(key, x)]) ++ '\x7d' :: rest =
        '"' :: (key.toList.flatMap (escaped true) ++
          '"' :: ':' :: (render compact x ++ '\x7d' :: rest)) := by
      simp [renderFields, separated, quoted, compact]
    rw [htext, readFields, skipSpace_cons (by decide)]
    simp only [readQuoted_text, Option.bind_eq_bind, Option.bind_some]
    rw [skipSpace_cons (by decide)]
    simp [hread, skipSpace]
  | (key, x) :: e :: es, fuel + 1, rest, _, h, hsize => by
    obtain ⟨hx, hes⟩ := (Bool.and_eq_true _ _).mp h
    have hread := readValue_render x fuel
      (',' :: (separated [','] (renderFields compact (e :: es)) ++ '\x7d' :: rest)) hx (by
        simp only [List.cons.sizeOf_spec, Prod.mk.sizeOf_spec] at hsize
        omega)
    have hfields := readFields_render (e :: es) fuel rest (by simp) hes (by
      simp only [List.cons.sizeOf_spec] at hsize ⊢
      omega)
    have htext : separated [','] (renderFields compact ((key, x) :: e :: es)) ++ '\x7d' :: rest =
        '"' :: (key.toList.flatMap (escaped true) ++ '"' :: ':' :: (render compact x ++
          ',' :: (separated [','] (renderFields compact (e :: es)) ++ '\x7d' :: rest))) := by
      simp [renderFields, separated, quoted, compact]
    rw [htext, readFields, skipSpace_cons (by decide)]
    simp only [readQuoted_text, Option.bind_eq_bind, Option.bind_some]
    rw [skipSpace_cons (by decide)]
    simp [hread, skipSpace, hfields]

end

/-- **The compact text of a tree without numbers and halves of characters determines the
tree.** -/
theorem eq_of_render_eq {j j' : Json} (h : j.recoverable = true) (h' : j'.recoverable = true)
    (heq : render compact j = render compact j') : j = j' := by
  have hread := readValue_render j (max (sizeOf j) (sizeOf j')) [] h (Nat.le_max_left _ _)
  have hread' := readValue_render j' (max (sizeOf j) (sizeOf j')) [] h' (Nat.le_max_right _ _)
  rw [heq, hread'] at hread
  cases hread
  rfl

end Clearance.Json
