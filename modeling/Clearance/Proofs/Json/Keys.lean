import Clearance.Json
import Clearance.Proofs.Run
import Clearance.Proofs.Value.Names
import Mathlib.Data.List.Forall2

/-! The fields of an object that is made from a mapping.

Every entry of a mapping is written as one field in its place (`writes_of_ofEntries`). Keys that
are no texts are written as well, but only as null, as truth values or as numbers. A name that is
a word, and none of these, is therefore written for texts alone (`text?_of_keyOf?`), and the
fields of that name are those of the entries under it (`fields_of_ofEntries`). -/
namespace Clearance.Json

/-! ## Words -/

/-- The characters that numbers are written with. -/
def isNumeric (c : Char) : Bool :=
  c.isDigit || ['-', '+', '.', 'e'].contains c

/-- What is written for keys that are neither texts nor numbers with digits. -/
def constants : List String :=
  ["null", "true", "false", "NaN", "Infinity", "-Infinity"]

/-- A name that stands neither for a number nor for one of the constants. -/
def isWord (s : String) : Bool :=
  !s.toList.all isNumeric && !constants.contains s

/-- A text that numbers may be written with. -/
def Numeric (cs : List Char) : Prop :=
  ∀ c ∈ cs, isNumeric c = true

variable {cs ds : List Char}

theorem Numeric.append (h : Numeric cs) (h' : Numeric ds) : Numeric (cs ++ ds) :=
  List.forall_mem_append.mpr ⟨h, h'⟩

theorem Numeric.cons {c : Char} (hc : isNumeric c = true) (h : Numeric cs) : Numeric (c :: cs) :=
  List.forall_mem_cons.mpr ⟨hc, h⟩

theorem Numeric.of_subset (h : Numeric cs) (hsub : ds ⊆ cs) : Numeric ds :=
  fun c hc => h c (hsub hc)

theorem Numeric.trimmed (h : Numeric cs) (p : Char → Bool) :
    Numeric (cs.reverse.dropWhile p).reverse := by
  refine h.of_subset fun c hc => ?_
  exact List.mem_reverse.mp ((List.dropWhile_sublist p).subset (List.mem_reverse.mp hc))

theorem numeric_nil : Numeric [] := by
  intro c hc
  cases hc

theorem numeric_zeros (n : Nat) : Numeric (List.replicate n '0') := by
  intro c hc
  rw [List.eq_of_mem_replicate hc]
  decide

theorem numeric_digits (n : Nat) : Numeric (Decimal.digits n) := by
  intro c hc
  rw [isNumeric, Nat.isDigit_of_mem_toDigits (by decide) (by decide) hc]
  rfl

theorem toList_toString (n : Nat) : (toString n).toList = Decimal.digits n := by
  rw [Nat.toString_eq_ofList_toDigits, String.toList_ofList]
  rfl

theorem numeric_int (n : Int) : Numeric (toString n).toList := by
  cases n with
  | ofNat m =>
    show Numeric (toString m).toList
    rw [toList_toString]
    exact numeric_digits m
  | negSucc m =>
    show Numeric ("-" ++ toString (m + 1)).toList
    rw [String.toList_append, toList_toString]
    exact (Numeric.cons (by decide) numeric_nil).append (numeric_digits _)

theorem numeric_layOut (h : Numeric ds) (lead : Int) : Numeric (Decimal.layOut ds lead) := by
  unfold Decimal.layOut
  split
  · split
    · exact (Numeric.cons (by decide) (.cons (by decide) (numeric_zeros _))).append h
    · refine ((h.of_subset (List.take_subset _ _)).append (numeric_zeros _)).append ?_
      refine .cons (by decide) ?_
      split
      · exact .cons (by decide) numeric_nil
      · exact h.of_subset (List.drop_subset _ _)
  · refine Numeric.append (.append ?_ (.cons (by decide) (.cons ?_ (numeric_zeros _))))
      (numeric_digits _)
    · split
      · exact numeric_nil
      · exact h
      · obtain ⟨hd, hrest⟩ := List.forall_mem_cons.mp h
        exact .cons hd (.cons (by decide) hrest)
    · split <;> decide

/-- A floating-point number is written with digits, or as a constant. -/
theorem floatText_cases (x : Binary64) :
    Numeric (floatText x).toList ∨ floatText x ∈ constants := by
  unfold floatText Decimal.text
  split
  · right
    decide
  · have hsign : ∀ cs, Numeric cs →
        Numeric (((if x.isNegative then "-" else "") ++ String.ofList cs).toList) := by
      intro cs hcs
      rw [String.toList_append, String.toList_ofList]
      refine Numeric.append ?_ hcs
      split
      · exact .cons (by decide) numeric_nil
      · exact numeric_nil
    simp only
    split
    · right
      split <;> decide
    · left
      split
      · exact hsign _ (.cons (by decide) (.cons (by decide) (.cons (by decide) numeric_nil)))
      · exact hsign _ (numeric_layOut ((numeric_digits _).trimmed _) _)

/-- **A word is written for texts alone.** -/
theorem text?_of_keyOf? {k : Value} {s : String} (h : keyOf? k = some s) (hs : isWord s = true) :
    k.text? = some s := by
  have hconstant : ∀ t ∈ constants, t ≠ s := by
    intro t ht heq
    subst heq
    simp [isWord, ht] at hs
  have hnumeric : ∀ t : String, Numeric t.toList → t ≠ s := by
    intro t ht heq
    subst heq
    have hall : t.toList.all isNumeric = true := List.all_eq_true.mpr ht
    simp [isWord, hall] at hs
  cases k with
  | text t => exact h
  | level l => exact h
  | null => exact absurd (Option.some.inj h) (hconstant _ (by decide))
  | bool b =>
    refine absurd (Option.some.inj h) (hconstant _ ?_)
    cases b <;> decide
  | int n => exact absurd (Option.some.inj h) (hnumeric _ (numeric_int n))
  | float x =>
    rcases floatText_cases x with hdigits | hspecial
    · exact absurd (Option.some.inj h) (hnumeric _ hdigits)
    · exact absurd (Option.some.inj h) (hconstant _ hspecial)
  | _ => cases h

theorem keyOf?_of_text? {k : Value} {s : String} (h : k.text? = some s) : keyOf? k = some s := by
  obtain ⟨hname, hword⟩ := Value.text?_eq_some_iff.mp h
  rcases Value.isName_cases hname with ⟨t, rfl⟩ | ⟨l, rfl⟩ <;> exact congrArg some hword

/-! ## The fields of an object -/

/-- How an entry of a mapping is written. -/
def Writes (e : Value × Value) (field : String × Json) : Prop :=
  keyOf? e.1 = some field.1 ∧ ofValue e.2 = .ok field.2

theorem writes_of_ofEntries {entries : List (Value × Value)} {fields : List (String × Json)}
    (h : ofEntries entries = .ok fields) : List.Forall₂ Writes entries fields := by
  induction entries generalizing fields with
  | nil =>
    cases h
    exact .nil
  | cons e rest ih =>
    obtain ⟨k, v⟩ := e
    unfold ofEntries at h
    cases hkey : keyOf? k with
    | none =>
      rw [hkey] at h
      cases h
    | some key =>
      rw [hkey] at h
      obtain ⟨_, -, h⟩ := bind_eq_ok_iff.mp h
      obtain ⟨j, hj, h⟩ := bind_eq_ok_iff.mp h
      obtain ⟨others, hothers, h⟩ := bind_eq_ok_iff.mp h
      cases h
      exact .cons ⟨hkey, hj⟩ (ih hothers)

theorem ofValues_of_writes {entries : List (Value × Value)} {fields : List (String × Json)}
    (h : List.Forall₂ Writes entries fields) :
    ofValues (entries.map Prod.snd) = .ok (fields.map Prod.snd) := by
  induction h with
  | nil => rfl
  | cons hwrites _ ih =>
    rw [List.map_cons, ofValues, hwrites.2, ih]
    rfl

/-- The entries of a mapping under a name. -/
def named (name : String) (entries : List (Value × Value)) : List (Value × Value) :=
  entries.filter fun e => e.1.text? == some name

/-- **The fields of a word** are those of the entries under it. -/
theorem fields_of_ofEntries {entries : List (Value × Value)} {fields : List (String × Json)}
    (h : ofEntries entries = .ok fields) {name : String} (hname : isWord name = true) :
    List.Forall₂ Writes (named name entries) (fields.filter fun f => f.1 == name) := by
  refine List.rel_filter ?_ (writes_of_ofEntries h)
  intro e f hwrites
  simp only [beq_iff_eq]
  constructor
  · intro htext
    exact Option.some.inj (hwrites.1.symm.trans (keyOf?_of_text? htext))
  · intro hkey
    exact text?_of_keyOf? (hkey ▸ hwrites.1) hname

end Clearance.Json
