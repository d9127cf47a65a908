import Clearance.Log.Preview
import Clearance.Proofs.Run
import Clearance.Proofs.Text.Spacing

/-! What previews look like.

A preview is the text of a value on one line, with single spaces between its words, and beyond a
limit the start of it with an ellipsis behind. `preview_laws` says so for every value that can be
written out and every limit from zero on, and how long a preview is: one character less than the
limit is kept, so that there is room for the mark, and only at zero, where this counts from the end
of the text, is a preview longer than its limit. -/
namespace Clearance

namespace Json

/-! ## Values that have JSON -/

mutual

/-- Whatever has JSON can be written out. -/
theorem writable_of_ofValue {j : Json} (v : Value) (h : ofValue v = .ok j) :
    v.writable = true := by
  cases v with
  | list items =>
    obtain ⟨members, hmembers, -⟩ := bind_eq_ok_iff.mp h
    exact allWritable_of_ofValues items hmembers
  | tuple items =>
    obtain ⟨members, hmembers, -⟩ := bind_eq_ok_iff.mp h
    exact allWritable_of_ofValues items hmembers
  | dict entries =>
    obtain ⟨fields, hfields, -⟩ := bind_eq_ok_iff.mp h
    exact entriesWritable_of_ofEntries entries hfields
  | knot => cases h
  | null | bool | float | text | level => simp [Value.writable]
  | _ =>
    unfold ofValue at h
    obtain ⟨_, hwritten, -⟩ := bind_eq_ok_iff.mp h
    exact asWritten_eq_ok_iff.mp hwritten _ List.mem_cons_self

theorem allWritable_of_ofValues {members : List Json} (items : List Value)
    (h : ofValues items = .ok members) : Value.allWritable items = true := by
  cases items with
  | nil => rfl
  | cons x rest =>
    obtain ⟨j, hj, h⟩ := bind_eq_ok_iff.mp h
    obtain ⟨others, hothers, -⟩ := bind_eq_ok_iff.mp h
    rw [Value.allWritable, writable_of_ofValue x hj, allWritable_of_ofValues rest hothers]
    rfl

theorem entriesWritable_of_ofEntries {fields : List (String × Json)}
    (entries : List (Value × Value)) (h : ofEntries entries = .ok fields) :
    Value.entriesWritable entries = true := by
  cases entries with
  | nil => rfl
  | cons e rest =>
    obtain ⟨k, v⟩ := e
    unfold ofEntries at h
    split at h
    · cases h
    · obtain ⟨_, hk, h⟩ := bind_eq_ok_iff.mp h
      obtain ⟨j, hj, h⟩ := bind_eq_ok_iff.mp h
      obtain ⟨others, hothers, -⟩ := bind_eq_ok_iff.mp h
      rw [Value.entriesWritable, asWritten_eq_ok_iff.mp hk k List.mem_cons_self,
        writable_of_ofValue v hj, entriesWritable_of_ofEntries rest hothers]
      rfl

end

end Json

namespace Log

/-- What a value says in a preview; null says nothing. -/
def spoken : Value → Except Failure (List Char)
  | .null => .ok []
  | v => previewText v

/-- How many characters of a text are kept in front of an ellipsis. -/
def kept (limit length : Nat) : Nat :=
  if limit = 0 then length - 1 else limit - 1

variable {limit : Nat} {cs : List Char}

/-! ## Cutting a text off -/

theorem cut_of_le (h : cs.length ≤ limit) : cut limit cs = cs := by
  rw [cut, if_neg (by omega)]

theorem cut_of_lt (h : limit < cs.length) :
    cut limit cs = cs.take (kept limit cs.length) ++ [ellipsis] := by
  rw [cut, if_pos (by omega), firstChars, kept]
  by_cases hzero : limit = 0
  · subst hzero
    rfl
  · have hcount : ((limit : Int) - 1).toNat = limit - 1 := by omega
    rw [if_pos (by omega), if_neg hzero, hcount]

theorem kept_lt (h : limit < cs.length) : kept limit cs.length < cs.length := by
  rw [kept]
  split <;> omega

theorem length_cut_of_lt (h : limit < cs.length) :
    (cut limit cs).length = kept limit cs.length + 1 := by
  have hkept := kept_lt h
  rw [cut_of_lt h, List.length_append, List.length_take, List.length_singleton]
  omega

/-- Of a text that is cut off a start is left. -/
theorem front_of_lt (h : limit < cs.length) : ∃ front, front <+: cs ∧
    front.length = (if limit = 0 then cs.length - 1 else limit - 1) ∧
    cut limit cs = front ++ [ellipsis] := by
  refine ⟨cs.take (kept limit cs.length), List.take_prefix _ _, ?_, cut_of_lt h⟩
  have hkept := kept_lt h
  rw [List.length_take, Nat.min_eq_left (by omega), kept]

/-- A text that is cut off is within the limit, unless the limit is zero. -/
theorem length_cut_le_iff : (cut limit cs).length ≤ limit ↔ 0 < limit ∨ cs = [] := by
  rw [← List.length_eq_zero_iff]
  by_cases hlong : limit < cs.length
  · rw [length_cut_of_lt hlong, kept]
    split <;> omega
  · rw [cut_of_le (by omega)]
    omega

/-- A text that is cut off is not cut off again, or at zero in the same place. -/
theorem cut_cut (limit : Nat) (cs : List Char) : cut limit (cut limit cs) = cut limit cs := by
  by_cases hlong : limit < cs.length
  · have hlength := length_cut_of_lt hlong
    by_cases hagain : limit < (cut limit cs).length
    · have hzero : limit = 0 := by
        rw [hlength, kept] at hagain
        split at hagain <;> omega
      have hkept : kept limit (cut limit cs).length = (cs.take (kept limit cs.length)).length := by
        have hless := kept_lt hlong
        rw [hlength, List.length_take]
        simp only [kept, if_pos hzero] at hless ⊢
        omega
      rw [cut_of_lt hagain, hkept, cut_of_lt hlong, List.take_left]
    · exact cut_of_le (by omega)
  · have hwhole : cut limit cs = cs := cut_of_le (by omega)
    rw [hwhole, hwhole]

theorem spaced_cut (limit : Nat) (h : Text.Spaced cs) : Text.Spaced (cut limit cs) := by
  by_cases hlong : limit < cs.length
  · rw [cut_of_lt hlong]
    exact h.cut _ (by decide)
  · rw [cut_of_le (by omega)]
    exact h

/-! ## Previews -/

theorem preview_eq (limit : Nat) (v : Value) :
    preview limit v = (spoken v).map fun text =>
      String.ofList (cut limit (Text.singleSpaced text)) := by
  cases v
  case null =>
    have hnothing : cut limit [] = [] := cut_of_le (Nat.zero_le _)
    exact congrArg (fun cs => Except.ok (String.ofList cs)) hnothing.symm
  all_goals
    simp only [preview, spoken, wholePreview]
    cases previewText _ <;> rfl

/-- Something answers exactly when a value can be written out. -/
structure WritesOut (v : Value) (x : Except Failure (List Char)) : Prop where
  answers : v.writable = true → ∃ text, x = .ok text
  fails : v.writable = false → x = .error .illFormed

theorem writesOut_ok {v : Value} (h : v.writable = true) (text : List Char) :
    WritesOut v (.ok text) :=
  ⟨fun _ => ⟨text, rfl⟩, fun hv => by simp [h] at hv⟩

theorem writesOut_plainText (v : Value) : WritesOut v (plainText v) where
  answers h := ⟨v.plain.toList, by rw [plainText, asWritten_of_writable (by simpa using h)]; rfl⟩
  fails h := by rw [plainText, asWritten_of_unwritable List.mem_cons_self h]; rfl

/-- What has JSON can be written out, and anything else is taken as it reads. -/
theorem writesOut_previewText (v : Value) : WritesOut v (previewText v) := by
  unfold previewText
  split
  · rename_i s hs
    exact writesOut_ok (Value.writable_of_text? hs) _
  · split
    · split
      · rename_i j hj
        exact writesOut_ok (Json.writable_of_ofValue v hj) _
      · exact writesOut_plainText v
    · exact writesOut_plainText v

theorem writesOut_spoken (v : Value) : WritesOut v (spoken v) := by
  unfold spoken
  split
  · exact writesOut_ok Value.writable_null _
  · exact writesOut_previewText v

/-- **Every preview is one line, and cut where it has to be.** A value that can be written out has
a preview, and no other value has one. The text of the value is put on one line with single spaces
between its words. When that fits, it is the preview, and else a start of it is, with an ellipsis
behind. A preview is its own preview. It is within its limit, except that a limit of zero takes
nothing but the last character away, for which the mark stands. -/
theorem preview_laws (limit : Nat) (v : Value) :
    (v.writable = false → preview limit v = .error .illFormed) ∧
    (v.writable = true → ∃ text shown, spoken v = .ok text ∧ preview limit v = .ok shown ∧
      let whole := Text.singleSpaced text
      (Text.Spaced whole ∧ Text.words whole = Text.words text) ∧
      Text.Spaced shown.toList ∧
      (whole.length ≤ limit → shown.toList = whole) ∧
      (limit < whole.length → ∃ front, front <+: whole ∧
        front.length = (if limit = 0 then whole.length - 1 else limit - 1) ∧
        shown.toList = front ++ [ellipsis]) ∧
      preview limit (.text shown) = .ok shown ∧
      (shown.length ≤ limit ↔ 0 < limit ∨ whole = [])) := by
  refine ⟨fun hv => by rw [preview_eq, (writesOut_spoken v).fails hv]; rfl, fun hv => ?_⟩
  obtain ⟨text, htext⟩ := (writesOut_spoken v).answers hv
  let whole := Text.singleSpaced text
  have hwhole : Text.Spaced whole := Text.spaced_singleSpaced _
  have hshown : (String.ofList (cut limit whole)).toList = cut limit whole :=
    String.toList_ofList
  have hspaced : Text.Spaced (cut limit whole) := spaced_cut limit hwhole
  have hpreview : preview limit v = .ok (String.ofList (cut limit whole)) := by
    rw [preview_eq, htext]
    rfl
  refine ⟨text, String.ofList (cut limit whole), htext, hpreview,
    ⟨hwhole, Text.words_singleSpaced _⟩, ?_, ?_, ?_, ?_, ?_⟩
  · rwa [hshown]
  · intro hfits
    rw [hshown, cut_of_le hfits]
  · intro hlong
    rw [hshown]
    exact front_of_lt hlong
  · have hagain : spoken (.text (String.ofList (cut limit whole))) = .ok (cut limit whole) :=
      congrArg Except.ok hshown
    rw [preview_eq, hagain, Except.map, Text.singleSpaced_of_spaced hspaced, cut_cut]
  · rw [← String.length_toList, hshown]
    exact length_cut_le_iff

/-- Within no characters at all, two of three are shown, and the mark. -/
theorem preview_abc_zero :
    preview 0 (.text "abc") = .ok "ab…" ∧ ¬ "ab…".length ≤ 0 :=
  ⟨toOption_eq_some_iff.mp (by decide +kernel), by decide⟩

end Log

end Clearance
