import Clearance.Log.Setup
import Clearance.Proofs.Json.Keys
import Clearance.Proofs.Log.Preview

/-! What the line of a record shows.

The fields of a line are filled in one after another: what the record says of itself, its
context, what it reports, and at the end a preview for every further attribute. The last value
under a name stays (`valuesOf_putPreviews`). Attributes that are called like the message or the
context are left out, so these fields are always the record's own; time, level and logger are its
own as long as no attribute is called like them, and else its preview stands there
(`line_shows`). -/
namespace Clearance.Log

/-! ## Filling in fields -/

/-- The values of a mapping under a name. -/
def valuesOf (name : String) (entries : List (Value × Value)) : List Value :=
  (Json.named name entries).map Prod.snd

variable {name : String} {key v : Value} {entries : List (Value × Value)}

theorem valuesOf_cons (name : String) (e : Value × Value) (rest : List (Value × Value)) :
    valuesOf name (e :: rest) =
      if e.1.text? = some name then e.2 :: valuesOf name rest else valuesOf name rest := by
  unfold valuesOf Json.named
  by_cases h : e.1.text? = some name
  · rw [List.filter_cons_of_pos (by simpa using h), if_pos h, List.map_cons]
  · rw [List.filter_cons_of_neg (by simpa using h), if_neg h]

/-- Putting a value under a name replaces the first one that stands there. -/
theorem valuesOf_put (name : String) (key v : Value) (entries : List (Value × Value)) :
    valuesOf name (Value.put key v entries) =
      if key.text? = some name then v :: (valuesOf name entries).tail
      else valuesOf name entries := by
  induction entries with
  | nil =>
    rw [Value.put, valuesOf_cons]
    rfl
  | cons e rest ih =>
    have hsame : key.text? = some name → (Value.same e.1 key = true ↔ e.1.text? = some name) := by
      intro hkey
      obtain ⟨hname, hword⟩ := Value.text?_eq_some_iff.mp hkey
      rw [Value.same_iff_of_isName_right hname, hword]
    rw [Value.put]
    by_cases hfound : Value.same e.1 key = true
    · rw [if_pos hfound, valuesOf_cons, valuesOf_cons]
      by_cases hkey : key.text? = some name
      · rw [if_pos hkey, if_pos ((hsame hkey).mp hfound), if_pos ((hsame hkey).mp hfound)]
        rfl
      · have hother : e.1.text? ≠ some name := by
          intro he
          obtain ⟨hname, hword⟩ := Value.text?_eq_some_iff.mp he
          rw [Value.same_iff_of_isName hname, hword] at hfound
          exact hkey hfound
        rw [if_neg hkey, if_neg hother, if_neg hother]
    · rw [if_neg hfound, valuesOf_cons, valuesOf_cons, ih]
      by_cases hkey : key.text? = some name
      · have hother : e.1.text? ≠ some name := fun he => hfound ((hsame hkey).mpr he)
        rw [if_pos hkey, if_pos hkey, if_neg hother, if_neg hother]
      · rw [if_neg hkey, if_neg hkey]

/-- The preview that a value is shown as, if it has one. -/
def shownAs (v : Value) : String :=
  (preview defaultLimit v).toOption.getD ""

theorem preview_eq_shownAs (v : Value) :
    preview defaultLimit v = (asWritten [v] >>= fun _ => .ok (shownAs v)) := by
  have heq : preview defaultLimit v = _ := preview_eq 240 v
  cases hv : v.writable with
  | true =>
    obtain ⟨text, htext⟩ := (writesOut_spoken v).answers hv
    rw [shownAs, heq, htext, asWritten_of_writable (by simpa using hv)]
    rfl
  | false =>
    rw [heq, (writesOut_spoken v).fails hv, asWritten_of_unwritable List.mem_cons_self hv]
    rfl

/-- The fields with a preview put in for each of some attributes. -/
def putPreviews (attributes fields : List (Value × Value)) : List (Value × Value) :=
  attributes.foldl (fun fs e => Value.put e.1 (.text (shownAs e.2)) fs) fields

/-- All previews are put in, if all of the attributes can be written out. -/
theorem withPreviews_eq (attributes fields : List (Value × Value)) :
    withPreviews attributes fields = (asWritten (attributes.map Prod.snd) >>= fun _ =>
      .ok (putPreviews attributes fields)) := by
  induction attributes generalizing fields with
  | nil => rfl
  | cons e rest ih =>
    have hstep : withPreviews (e :: rest) fields = (preview defaultLimit e.2 >>= fun shown =>
        withPreviews rest (Value.put e.1 (.text shown) fields)) := by
      rw [withPreviews, List.foldlM_cons]
      cases preview defaultLimit e.2 <;> rfl
    rw [List.map_cons, asWritten_cons, hstep, preview_eq_shownAs]
    cases asWritten [e.2] with
    | error f => rfl
    | ok _ => exact ih _

/-- **The last value stays**: under a name stands the preview of its last attribute, or what stood
there. -/
theorem valuesOf_putPreviews (name : String) (attributes fields : List (Value × Value)) :
    valuesOf name (putPreviews attributes fields) =
      match (valuesOf name attributes).getLast? with
      | some w => .text (shownAs w) :: (valuesOf name fields).tail
      | none => valuesOf name fields := by
  induction attributes generalizing fields with
  | nil => rfl
  | cons e rest ih =>
    show valuesOf name (putPreviews rest (Value.put e.1 _ fields)) = _
    rw [ih, valuesOf_put, valuesOf_cons]
    by_cases he : e.1.text? = some name
    · rw [if_pos he, if_pos he, List.getLast?_cons]
      cases (valuesOf name rest).getLast? <;> rfl
    · rw [if_neg he, if_neg he]

theorem mem_put_of_other {e : Value × Value} (he : e ∈ entries)
    (hother : Value.same e.1 key = false) (v : Value) : e ∈ Value.put key v entries := by
  induction entries with
  | nil => cases he
  | cons first rest ih =>
    rw [Value.put]
    rcases List.mem_cons.mp he with rfl | he
    · rw [if_neg (by simp [hother])]
      exact List.mem_cons_self
    · split
      · exact List.mem_cons_of_mem _ he
      · exact List.mem_cons_of_mem _ (ih he)

/-- A value under a new key goes to the end. -/
theorem put_of_new (hnew : ∀ e ∈ entries, Value.same e.1 key = false) (v : Value) :
    Value.put key v entries = entries ++ [(key, v)] := by
  induction entries with
  | nil => rfl
  | cons e rest ih =>
    obtain ⟨he, hrest⟩ := List.forall_mem_cons.mp hnew
    rw [Value.put, if_neg (by simp [he]), ih hrest, List.cons_append]

/-- What stands under another key stays. -/
theorem mem_putPreviews {e : Value × Value} {attributes fields : List (Value × Value)}
    (he : e ∈ fields) (hother : ∀ a ∈ attributes, Value.same e.1 a.1 = false) :
    e ∈ putPreviews attributes fields := by
  induction attributes generalizing fields with
  | nil => exact he
  | cons a rest ih =>
    obtain ⟨ha, hrest⟩ := List.forall_mem_cons.mp hother
    exact ih (mem_put_of_other he ha _) hrest

theorem key_of_mem_put {e : Value × Value} (he : e ∈ Value.put key v entries) :
    e.1 = key ∨ ∃ f ∈ entries, f.1 = e.1 := by
  induction entries with
  | nil => exact .inl (congrArg Prod.fst (List.mem_singleton.mp he))
  | cons first rest ih =>
    rw [Value.put] at he
    split at he
    · rcases List.mem_cons.mp he with rfl | he
      · exact .inr ⟨first, List.mem_cons_self, rfl⟩
      · exact .inr ⟨e, List.mem_cons_of_mem _ he, rfl⟩
    · rcases List.mem_cons.mp he with rfl | he
      · exact .inr ⟨e, List.mem_cons_self, rfl⟩
      · rcases ih he with hkey | ⟨f, hf, hkey⟩
        · exact .inl hkey
        · exact .inr ⟨f, List.mem_cons_of_mem _ hf, hkey⟩

/-- No other keys come in than those of attributes. -/
theorem key_of_mem_putPreviews {e : Value × Value} {attributes fields : List (Value × Value)}
    (he : e ∈ putPreviews attributes fields) :
    ∃ f, (f ∈ fields ∨ f ∈ attributes) ∧ f.1 = e.1 := by
  induction attributes generalizing fields with
  | nil => exact ⟨e, .inl he, rfl⟩
  | cons a rest ih =>
    obtain ⟨f, hf | hf, hkey⟩ := ih he
    · rcases key_of_mem_put hf with hput | ⟨f', hf', hput⟩
      · exact ⟨a, .inr List.mem_cons_self, hput.symm.trans hkey⟩
      · exact ⟨f', .inl hf', hput.trans hkey⟩
    · exact ⟨f, .inr (List.mem_cons_of_mem _ hf), hkey⟩

/-! ## Attributes with keys of their own -/

/-- Attributes of which no two have the same key. -/
def Distinct (attributes : List (Value × Value)) : Prop :=
  attributes.Pairwise fun a b => Value.same a.1 b.1 = false

theorem valuesOf_eq_nil (h : ∀ e ∈ entries, e.1.text? ≠ some name) :
    valuesOf name entries = [] := by
  rw [valuesOf, Json.named, List.map_eq_nil_iff, List.filter_eq_nil_iff]
  intro e he
  simpa using h e he

/-- Under the name of an attribute stands that attribute alone. -/
theorem Distinct.valuesOf (h : Distinct entries) {a : Value × Value} (ha : a ∈ entries)
    (hname : a.1.text? = some name) : valuesOf name entries = [a.2] := by
  obtain ⟨hisName, hword⟩ := Value.text?_eq_some_iff.mp hname
  induction entries with
  | nil => cases ha
  | cons e rest ih =>
    obtain ⟨hothers, hrest⟩ := List.pairwise_cons.mp h
    rw [valuesOf_cons]
    rcases List.mem_cons.mp ha with rfl | ha
    · rw [if_pos hname, valuesOf_eq_nil]
      intro b hb hsame
      have hother := hothers b hb
      rw [Bool.eq_false_iff, ne_eq, Value.same_iff_of_isName hisName, hword] at hother
      exact hother hsame
    · have hother := hothers a ha
      rw [Bool.eq_false_iff, ne_eq, Value.same_iff_of_isName_right hisName, hword] at hother
      rw [if_neg hother]
      exact ih hrest ha

theorem at?_text (name : String) (entries : List (Value × Value)) :
    Value.at? (.text name) entries = (valuesOf name entries).head? := by
  unfold valuesOf Json.named
  rw [List.head?_map, List.head?_filter, Value.at?]
  refine congrArg (fun p => Option.map Prod.snd (List.find? p entries)) (funext fun e => ?_)
  rw [Bool.eq_iff_iff, Value.same_iff_of_isName_right (Value.isName_text name), beq_iff_eq,
    Value.word_text]

/-- With keys of their own, the last value under a name is the first one. -/
theorem Distinct.getLast?_valuesOf (h : Distinct entries) (name : String) :
    (Log.valuesOf name entries).getLast? = Value.at? (.text name) entries := by
  rw [at?_text]
  by_cases hname : ∃ a ∈ entries, a.1.text? = some name
  · obtain ⟨a, ha, hname⟩ := hname
    rw [h.valuesOf ha hname]
    rfl
  · rw [valuesOf_eq_nil fun e he heq => hname ⟨e, he, heq⟩]
    rfl

/-- The preview of every attribute is put in. -/
theorem preview_mem_putPreviews {attributes fields : List (Value × Value)}
    (hdistinct : Distinct attributes) (hfields : ∀ f ∈ fields, f.1.IsText)
    {a : Value × Value} (ha : a ∈ attributes) :
    ∃ k, (k, .text (shownAs a.2)) ∈ putPreviews attributes fields ∧
      Json.keyOf? k = Json.keyOf? a.1 := by
  cases hname : a.1.text? with
  | some name =>
    -- it replaces what stands under its name
    have hvalues := valuesOf_putPreviews name attributes fields
    rw [hdistinct.valuesOf ha hname, List.getLast?_singleton] at hvalues
    have hmem : Value.text (shownAs a.2) ∈
        valuesOf name (putPreviews attributes fields) := hvalues ▸ List.mem_cons_self
    obtain ⟨⟨k, _⟩, hk, rfl⟩ := List.mem_map.mp hmem
    obtain ⟨hk, htext⟩ := List.mem_filter.mp hk
    exact ⟨k, hk, (Json.keyOf?_of_text? (beq_iff_eq.mp htext)).trans
      (Json.keyOf?_of_text? hname).symm⟩
  | none =>
    -- nothing has the same key, so that it goes to the end and stays there
    obtain ⟨before, after, rfl⟩ := List.append_of_mem ha
    obtain ⟨-, hlater, hearlier⟩ := List.pairwise_append.mp hdistinct
    have hnew : ∀ e ∈ putPreviews before fields, Value.same e.1 a.1 = false := by
      intro e he
      obtain ⟨f, hf | hf, hkey⟩ := key_of_mem_putPreviews he
      · obtain ⟨s, hs⟩ := hfields f hf
        rw [← hkey, hs, Bool.eq_false_iff, ne_eq, Value.same_iff_of_isName (Value.isName_text s),
          hname]
        simp
      · exact hkey ▸ hearlier f hf a List.mem_cons_self
    refine ⟨a.1, ?_, rfl⟩
    rw [putPreviews, List.foldl_append, List.foldl_cons]
    refine mem_putPreviews ?_ (List.pairwise_cons.mp hlater).1
    show _ ∈ Value.put a.1 _ (putPreviews before fields)
    rw [put_of_new hnew]
    exact List.mem_append_right _ List.mem_cons_self

/-! ## Records -/

namespace Record

/-- A record with attributes that it may be given: no two have the same key, and none has the name
of one that every record has, or gets while it is written. -/
structure Admitted (r : Record) : Prop where
  distinct : Distinct r.attributes
  free : ∀ a ∈ r.attributes, ∀ s, a.1.text? = some s → s ∉ "message" :: "asctime" :: ownAttributes

/-- The attributes that are shown as previews. -/
def further (r : Record) : List (Value × Value) :=
  r.attributes.filter fun e => !e.1.text?.any reserved.contains

/-- What stands in a field of a record: the preview of an attribute of that name, if there is one,
and else what the record says. -/
def inPlace (r : Record) (name : String) (v : Value) : Value :=
  match r.attribute? name with
  | some w => .text (shownAs w)
  | none => v

/-- What a record says of itself, with its message filled in, and its context. -/
def own (r : Record) (includeContext : Bool) (time text : String) : List (String × Value) :=
  [("timestamp", .text time), ("level", r.level), ("logger", r.logger), ("message", .text text)] ++
    (if includeContext then r.context else [])

/-- What of this stands under a name. -/
def ownValues (r : Record) (includeContext : Bool) (time text name : String) : List Value :=
  ((r.own includeContext time text).filter fun e => e.1 == name).map Prod.snd

/-- The value of an attribute in the context that a line shows, if it shows it. -/
def contextAt (r : Record) (includeContext : Bool) (name : String) : List Value :=
  if includeContext && (r.attributeAt name).isTrue then [r.attributeAt name] else []

variable {r : Record} {includeContext : Bool} {time text name : String} {v : Value}
  {reported : List (String × Value)} {fields : List (Value × Value)}

theorem fields_eq_ok (h : r.fields includeContext time = .ok fields) :
    ∃ text reported, r.text = .ok text ∧ reportedText r.reported = .ok reported ∧
      asWritten (r.further.map Prod.snd) = .ok () ∧ fields = putPreviews r.further
        ((r.own includeContext time text ++ reported).map fun e => (.text e.1, e.2)) := by
  obtain ⟨text, htext, h⟩ := bind_eq_ok_iff.mp h
  obtain ⟨reported, hreported, h⟩ := bind_eq_ok_iff.mp h
  rw [withPreviews_eq] at h
  obtain ⟨_, hwritten, h⟩ := bind_eq_ok_iff.mp h
  cases h
  exact ⟨text, reported, htext, hreported, hwritten, rfl⟩

/-- Whatever is reported is called an exception. -/
theorem name_of_reportedText {x : Reported}
    (h : reportedText x = .ok reported) : ∀ e ∈ reported, e.1 = "exception" := by
  cases x with
  | failure text =>
    cases h
    simp
  | described triple =>
    rw [reportedText] at h
    split at h
    · obtain ⟨text, -, h⟩ := bind_eq_ok_iff.mp h
      cases h
      simp
    · cases h
      simp

/-! ## The values of fields -/

theorem valuesOf_map_text (name : String) (own : List (String × Value)) :
    valuesOf name (own.map fun e => (.text e.1, e.2)) =
      (own.filter fun e => e.1 == name).map Prod.snd := by
  rw [valuesOf, Json.named, List.filter_map, List.map_map]
  exact congrArg (List.map Prod.snd) (List.filter_congr fun e _ => rfl)

/-- The previews of a name that is not reserved are those of its attributes. -/
theorem valuesOf_further (name : String) : valuesOf name r.further =
    if reserved.contains name then [] else valuesOf name r.attributes := by
  split
  · rename_i hreserved
    refine valuesOf_eq_nil fun e he heq => ?_
    have hshown := (List.mem_filter.mp he).2
    rw [heq, Option.any_some, hreserved] at hshown
    cases hshown
  · rename_i hfree
    rw [valuesOf, valuesOf, Json.named, Json.named, further, List.filter_filter]
    refine congrArg (List.map Prod.snd) (List.filter_congr fun e _ => ?_)
    by_cases htext : e.1.text? = some name
    · rw [htext, Option.any_some, Bool.eq_false_iff.mpr hfree]
      simp
    · rw [beq_eq_false_iff_ne.mpr htext, Bool.false_and]

theorem Admitted.distinct_further (h : r.Admitted) : Distinct r.further :=
  List.Pairwise.filter _ h.distinct

/-- Every attribute is shown as a preview, except the context and the name of a task. -/
theorem Admitted.mem_further (h : r.Admitted) {a : Value × Value} (ha : a ∈ r.attributes)
    (hname : ∀ s, a.1.text? = some s → s ∉ ["taskName", "entity_type", "trace_id"]) :
    a ∈ r.further := by
  refine List.mem_filter.mpr ⟨ha, ?_⟩
  cases htext : a.1.text? with
  | none => rfl
  | some s =>
    have hfree := h.free a ha s htext
    have hother := hname s htext
    rw [Option.any_some, Bool.not_eq_true', Bool.eq_false_iff, ne_eq, List.contains_iff_mem,
      reserved, List.mem_append]
    simp only [List.mem_cons, not_or] at hfree hother ⊢
    exact ⟨hfree.2.2, hfree.1, hother⟩

/-- Context is shown under two names only. -/
theorem filter_context_eq_nil (hentity : name ≠ "entity_type") (htrace : name ≠ "trace_id") :
    (if includeContext then r.context else []).filter (fun e => e.1 == name) = [] := by
  rw [List.filter_eq_nil_iff, context]
  intro e he heq
  obtain rfl := beq_iff_eq.mp heq
  split at he
  · rcases List.mem_append.mp he with he | he
    · split at he
      · exact hentity (congrArg Prod.fst (List.mem_singleton.mp he))
      · cases he
    · split at he
      · exact htrace (congrArg Prod.fst (List.mem_singleton.mp he))
      · cases he
  · cases he

/-- What a record says of itself alone stands under any other name. -/
theorem ownValues_of_ne (hentity : name ≠ "entity_type") (htrace : name ≠ "trace_id") :
    r.ownValues includeContext time text name =
      ([("timestamp", .text time), ("level", r.level), ("logger", r.logger),
        ("message", .text text)].filter fun e => e.1 == name).map Prod.snd := by
  rw [ownValues, own, List.filter_append, filter_context_eq_nil hentity htrace, List.append_nil]

/-- What the fields of a name say before previews are put in. -/
theorem valuesOf_own (hreported : reportedText r.reported = .ok reported)
    (hname : name ≠ "exception") :
    valuesOf name ((r.own includeContext time text ++ reported).map fun e => (.text e.1, e.2)) =
      r.ownValues includeContext time text name := by
  have hnone : reported.filter (fun e => e.1 == name) = [] := by
    rw [List.filter_eq_nil_iff]
    intro e he
    rw [name_of_reportedText hreported e he]
    simpa using Ne.symm hname
  rw [valuesOf_map_text, List.filter_append, hnone, List.append_nil, ownValues]

/-- No preview replaces a field with a reserved name. -/
theorem valuesOf_of_reserved (h : r.fields includeContext time = .ok fields)
    (htext : r.text = .ok text) (hname : reserved.contains name = true) :
    valuesOf name fields = r.ownValues includeContext time text name := by
  obtain ⟨said, reported, hsaid, hreported, -, rfl⟩ := fields_eq_ok h
  obtain rfl := Except.ok.inj (hsaid.symm.trans htext)
  rw [valuesOf_putPreviews, valuesOf_further, if_pos hname]
  refine valuesOf_own hreported ?_
  rintro rfl
  cases hname

/-- In any other field an attribute of its name takes the place of what the record says. -/
theorem valuesOf_of_free (hadmitted : r.Admitted) (h : r.fields includeContext time = .ok fields)
    (hname : reserved.contains name = false) (hreport : name ≠ "exception")
    (hv : ∀ text, r.ownValues includeContext time text name = [v]) :
    valuesOf name fields = [r.inPlace name v] := by
  obtain ⟨text, reported, -, hreported, -, rfl⟩ := fields_eq_ok h
  rw [valuesOf_putPreviews, valuesOf_further, hname, if_neg Bool.false_ne_true,
    hadmitted.distinct.getLast?_valuesOf, valuesOf_own hreported hreport, hv, inPlace, attribute?]
  cases Value.at? (.text name) r.attributes <;> rfl

/-- The context under its two names. -/
theorem ownValues_context :
    r.ownValues includeContext time text "entity_type" =
      r.contextAt includeContext "entity_type" ∧
    r.ownValues includeContext time text "trace_id" =
      (r.contextAt includeContext "trace_id").map traceShown := by
  unfold ownValues own contextAt context
  cases includeContext
  · exact ⟨rfl, rfl⟩
  · simp only [if_true, Bool.true_and]
    constructor <;> split <;> split <;> rfl

/-- What stands in the fields that every line has. -/
theorem valuesOf_fields (hadmitted : r.Admitted) (h : r.fields includeContext time = .ok fields)
    (htext : r.text = .ok text) :
    valuesOf "timestamp" fields = [r.inPlace "timestamp" (.text time)] ∧
    valuesOf "level" fields = [r.inPlace "level" r.level] ∧
    valuesOf "logger" fields = [r.inPlace "logger" r.logger] ∧
    valuesOf "message" fields = [.text text] := by
  refine ⟨?_, ?_, ?_, ?_⟩
  · exact valuesOf_of_free hadmitted h (by decide) (by decide) fun _ =>
      ownValues_of_ne (by decide) (by decide)
  · exact valuesOf_of_free hadmitted h (by decide) (by decide) fun _ =>
      ownValues_of_ne (by decide) (by decide)
  · exact valuesOf_of_free hadmitted h (by decide) (by decide) fun _ =>
      ownValues_of_ne (by decide) (by decide)
  · rw [valuesOf_of_reserved h htext (by decide)]
    exact ownValues_of_ne (by decide) (by decide)

/-- What stands in the fields of the context. -/
theorem valuesOf_context (h : r.fields includeContext time = .ok fields) :
    valuesOf "entity_type" fields = r.contextAt includeContext "entity_type" ∧
    valuesOf "trace_id" fields = (r.contextAt includeContext "trace_id").map traceShown := by
  obtain ⟨text, -, htext, -⟩ := fields_eq_ok h
  rw [valuesOf_of_reserved h htext (by decide), valuesOf_of_reserved h htext (by decide)]
  exact ownValues_context

/-! ## Lines -/

/-- The fields of a name in an object say some values, in their order. -/
def Says (members : List (String × Json)) (name : String) (values : List Value) : Prop :=
  Json.ofValues values = .ok ((members.filter fun m => m.1 == name).map Prod.snd)

variable {members : List (String × Json)}

theorem says_valuesOf (h : Json.ofEntries fields = .ok members) (hname : Json.isWord name = true) :
    Says members name (valuesOf name fields) :=
  Json.ofValues_of_writes (Json.fields_of_ofEntries h hname)

/-- What an object shows of a record. -/
structure ShownIn (r : Record) (includeContext : Bool) (time : String)
    (members : List (String × Json)) : Prop where
  message : ∃ text, r.text = .ok text ∧ Says members "message" [.text text]
  timestamp : Says members "timestamp" [r.inPlace "timestamp" (.text time)]
  level : Says members "level" [r.inPlace "level" r.level]
  logger : Says members "logger" [r.inPlace "logger" r.logger]
  entityType : Says members "entity_type" (r.contextAt includeContext "entity_type")
  trace : Says members "trace_id" (r.contextAt includeContext "trace_id")
  previews : ∀ a ∈ r.attributes,
    (∀ s, a.1.text? = some s → s ∉ ["taskName", "entity_type", "trace_id"]) →
    ∃ key shown, Json.keyOf? a.1 = some key ∧ preview defaultLimit a.2 = .ok shown ∧
      (key, Json.text shown) ∈ members

/-- A trace is the same in an object when it is shown. -/
theorem ofValues_map_traceShown (values : List Value) :
    Json.ofValues (values.map traceShown) = Json.ofValues values := by
  induction values with
  | nil => rfl
  | cons v rest ih =>
    have hv : Json.ofValue (traceShown v) = Json.ofValue v := by cases v <;> rfl
    rw [List.map_cons, Json.ofValues, Json.ofValues, hv, ih]

theorem shownIn_of_ofEntries (hadmitted : r.Admitted)
    (h : r.fields includeContext time = .ok fields)
    (hmembers : Json.ofEntries fields = .ok members) :
    r.ShownIn includeContext time members := by
  obtain ⟨text, reported, htext, -, hwritten, hfields⟩ := fields_eq_ok h
  obtain ⟨htimestamp, hlevel, hlogger, hmessage⟩ := valuesOf_fields hadmitted h htext
  obtain ⟨hentity, htrace⟩ := valuesOf_context h
  constructor
  case message => exact ⟨text, htext, hmessage ▸ says_valuesOf hmembers (by decide)⟩
  case timestamp => exact htimestamp ▸ says_valuesOf hmembers (by decide)
  case level => exact hlevel ▸ says_valuesOf hmembers (by decide)
  case logger => exact hlogger ▸ says_valuesOf hmembers (by decide)
  case entityType => exact hentity ▸ says_valuesOf hmembers (by decide)
  case trace =>
    have hsays : Says members "trace_id" (valuesOf "trace_id" fields) :=
      says_valuesOf hmembers (by decide)
    rw [htrace, Says, ofValues_map_traceShown] at hsays
    exact hsays
  case previews =>
    intro a ha hname
    have hfurther := hadmitted.mem_further ha hname
    have htexts : ∀ f ∈ (r.own includeContext time text ++ reported).map
        fun e => (Value.text e.1, e.2), f.1.IsText := by
      intro f hf
      obtain ⟨e, -, rfl⟩ := List.mem_map.mp hf
      exact ⟨e.1, rfl⟩
    obtain ⟨k, hk, hsame⟩ := preview_mem_putPreviews hadmitted.distinct_further htexts hfurther
    obtain ⟨⟨key, value⟩, hmem, hkey, hvalue⟩ :=
      exists_of_mem_forall₂ (Json.writes_of_ofEntries hmembers) (hfields ▸ hk)
    cases hvalue
    have hshown : preview defaultLimit a.2 = .ok (shownAs a.2) := by
      have hout := asWritten_eq_ok_iff.mp hwritten _ (List.mem_map_of_mem hfurther)
      rw [preview_eq_shownAs, asWritten_of_writable (by simpa using hout)]
      rfl
    exact ⟨key, shownAs a.2, hsame.symm.trans hkey, hshown, hmem⟩

/-- A line of JSON is one object. -/
theorem json_line {line : String} (h : r.line includeContext true time = .ok line) :
    ∃ fields members, r.fields includeContext time = .ok fields ∧
      Json.ofEntries fields = .ok members ∧
      line = String.ofList ((Json.object members).render Json.readable) := by
  obtain ⟨fields, hfields, h⟩ := bind_eq_ok_iff.mp h
  obtain ⟨j, hj, h⟩ := bind_eq_ok_iff.mp h
  obtain ⟨members, hmembers, hj⟩ := bind_eq_ok_iff.mp hj
  cases hj
  cases h
  exact ⟨fields, members, hfields, hmembers, rfl⟩

theorem shown_of_valuesOf (h : valuesOf name fields = [v]) :
    shown fields name = (asWritten [v] >>= fun _ => .ok v.plain) := by
  rw [shown, at?_text, h]
  rfl

/-- The parts of the context are written out one after the other. -/
theorem mapM_shownPart (context : List (String × Value)) :
    context.mapM shownPart = (asWritten (context.map Prod.snd) >>= fun _ =>
      .ok (context.map fun e => e.1 ++ "=" ++ e.2.plain)) := by
  induction context with
  | nil => rfl
  | cons e rest ih =>
    rw [List.mapM_cons, ih, List.map_cons, asWritten_cons, shownPart]
    cases asWritten [e.2] with
    | error f => rfl
    | ok _ => cases asWritten (rest.map Prod.snd) <;> rfl

/-- What a line of plain text writes out besides time and message: the attributes that have
previews, whether or not they are shown, level and logger, and the context. -/
def writtenOut (r : Record) (includeContext : Bool) : List Value :=
  r.further.map Prod.snd ++ r.inPlace "level" r.level :: r.inPlace "logger" r.logger ::
    (if includeContext then r.context else []).map Prod.snd

/-- A line of plain text: time, level and logger, the context, and the message. -/
def plainLine (r : Record) (includeContext : Bool) (time text : String) : String :=
  " ".intercalate (["[" ++ (r.inPlace "timestamp" (.text time)).plain ++ "]",
    (r.inPlace "level" r.level).plain, (r.inPlace "logger" r.logger).plain] ++
    (if includeContext then r.context else []).map (fun e => e.1 ++ "=" ++ e.2.plain) ++
    [": " ++ text])

theorem writable_inPlace_text (r : Record) (name text : String) :
    (r.inPlace name (.text text)).writable = true := by
  unfold inPlace
  split <;> exact Value.writable_text _

/-- The line once the previews are there. -/
theorem plain_line_of_fields (hadmitted : r.Admitted)
    (h : r.fields includeContext time = .ok fields) (htext : r.text = .ok text) :
    r.line includeContext false time = (asWritten (r.inPlace "level" r.level ::
        r.inPlace "logger" r.logger :: (if includeContext then r.context else []).map Prod.snd) >>=
      fun _ => .ok (r.plainLine includeContext time text)) := by
  obtain ⟨htimestamp, hlevel, hlogger, hmessage⟩ := valuesOf_fields hadmitted h htext
  have htime : asWritten [r.inPlace "timestamp" (.text time)] = .ok () :=
    asWritten_of_writable (by simpa using r.writable_inPlace_text "timestamp" time)
  have htold : asWritten [.text text] = .ok () := asWritten_of_writable (by simp)
  rw [line, h, asWritten_cons (r.inPlace "level" r.level),
    asWritten_cons (r.inPlace "logger" r.logger)]
  simp only [bind, Except.bind, Bool.false_eq_true, if_false, mapM_shownPart,
    shown_of_valuesOf htimestamp, shown_of_valuesOf hlevel, shown_of_valuesOf hlogger,
    shown_of_valuesOf hmessage, htime, htold]
  cases asWritten [r.inPlace "level" r.level] with
  | error f => rfl
  | ok _ =>
    cases asWritten [r.inPlace "logger" r.logger] with
    | error f => rfl
    | ok _ =>
      cases asWritten ((if includeContext then r.context else []).map Prod.snd) with
      | error f => rfl
      | ok _ => rfl

/-- A line of plain text begins with time, level and logger, and ends with the message. -/
theorem plain_line (hadmitted : r.Admitted) : r.line includeContext false time = (do
    let text ← r.text
    let _ ← reportedText r.reported
    asWritten (r.writtenOut includeContext)
    pure (r.plainLine includeContext time text)) := by
  cases htext : r.text with
  | error e =>
    rw [line, fields, htext]
    rfl
  | ok text =>
    cases hreported : reportedText r.reported with
    | error e =>
      rw [line, fields, htext, hreported]
      rfl
    | ok reported =>
      have hfields : r.fields includeContext time = (asWritten (r.further.map Prod.snd) >>=
          fun _ => .ok (putPreviews r.further
            ((r.own includeContext time text ++ reported).map fun e => (.text e.1, e.2)))) := by
        rw [fields, htext, hreported]
        exact withPreviews_eq _ _
      show _ = (asWritten (r.writtenOut includeContext) >>= fun _ => _)
      rw [writtenOut, asWritten_append]
      cases hwritten : asWritten (r.further.map Prod.snd) with
      | error e =>
        rw [line, hfields, hwritten]
        rfl
      | ok _ =>
        rw [hwritten] at hfields
        exact plain_line_of_fields hadmitted hfields htext

/-- **What a line shows.** Whatever attributes a record was given, message and context are its own,
in JSON and in plain text, and every other attribute, except the name of a task, is shown in JSON
as its preview. Time, level and logger are the record's own as long as none of its attributes is
called like them. Writing the line fails over what cannot be written out, previews that a line of
plain text does not show included. -/
theorem line_shows (hadmitted : r.Admitted) (includeContext : Bool) (time : String) :
    (∀ line, r.line includeContext true time = .ok line → ∃ members,
      line = String.ofList ((Json.object members).render Json.readable) ∧
      r.ShownIn includeContext time members) ∧
    r.line includeContext false time = (do
      let text ← r.text
      let _ ← reportedText r.reported
      asWritten (r.writtenOut includeContext)
      pure (r.plainLine includeContext time text)) := by
  refine ⟨?_, plain_line hadmitted⟩
  intro line hline
  obtain ⟨fields, members, hfields, hmembers, hrender⟩ := json_line hline
  exact ⟨members, hrender, shownIn_of_ofEntries hadmitted hfields hmembers⟩

/-- A record with a context, and with an attribute whose key is a number. -/
def noted : Record :=
  { make (.text "svc") .info (.text "x") [] with
    attributes := [(.text "entity_type", .text "Invoice"), (.int 1, .text " a\tb ")] }

theorem line_shows_noted : noted.Admitted ∧
    (∃ members,
      String.ofList ((Json.object members).render Json.readable) =
        "\x7b\"timestamp\": \"TS\", \"level\": \"INFO\", \"logger\": \"svc\", " ++
          "\"message\": \"x\", \"entity_type\": \"Invoice\", \"1\": \"a b\"\x7d" ∧
      noted.ShownIn true "TS" members) ∧
    noted.line true false "TS" = .ok "[TS] INFO svc entity_type=Invoice : x" := by
  have hadmitted : noted.Admitted := by
    constructor
    · rw [Distinct, noted, List.pairwise_pair]
      decide +kernel
    · intro a ha s hs
      simp only [noted, List.mem_cons, List.not_mem_nil, or_false] at ha
      rcases ha with rfl | rfl
      · cases hs
        decide
      · cases hs
  have hline : noted.line true true "TS" = .ok
      ("\x7b\"timestamp\": \"TS\", \"level\": \"INFO\", \"logger\": \"svc\", " ++
        "\"message\": \"x\", \"entity_type\": \"Invoice\", \"1\": \"a b\"\x7d") :=
    toOption_eq_some_iff.mp (by decide +kernel)
  obtain ⟨hobject, hplain⟩ := line_shows hadmitted true "TS"
  obtain ⟨members, hrender, hshown⟩ := hobject _ hline
  refine ⟨hadmitted, ⟨members, hrender.symm, hshown⟩, ?_⟩
  rw [hplain]
  exact toOption_eq_some_iff.mp (by decide +kernel)

/-- A record with an attribute that is called like its level. -/
def forged : Record :=
  { make (.text "svc") .info (.text "x") [] with attributes := [(.text "level", .text "forged")] }

/-- The level that is shown, in JSON and in plain text, is not that of the record. -/
theorem line_forged : forged.Admitted ∧ forged.level = .text "INFO" ∧
    forged.line true true "TS" = .ok
      ("\x7b\"timestamp\": \"TS\", \"level\": \"forged\", \"logger\": \"svc\", " ++
        "\"message\": \"x\"\x7d") ∧
    forged.line true false "TS" = .ok "[TS] forged svc : x" := by
  refine ⟨⟨List.pairwise_singleton _ _, ?_⟩, rfl, ?_, ?_⟩
  · intro a ha s hs
    obtain rfl := List.mem_singleton.mp ha
    cases hs
    decide
  · exact toOption_eq_some_iff.mp (by decide +kernel)
  · exact toOption_eq_some_iff.mp (by decide +kernel)

end Record

/-! ## Records of calls -/

namespace Call

theorem admitted_addExtras {extra : Value} {keys : List Value} {r made : Record}
    (h : addExtras extra r keys = .ok made) (hadmitted : r.Admitted) : made.Admitted := by
  induction keys generalizing r with
  | nil =>
    cases h
    exact hadmitted
  | cons key rest ih =>
    obtain ⟨-, -, h⟩ := bind_eq_ok_iff.mp h
    split at h
    · cases h
    · rename_i htaken
      obtain ⟨v, -, h⟩ := bind_eq_ok_iff.mp h
      rw [Bool.not_eq_true, isTaken, Bool.or_eq_false_iff] at htaken
      obtain ⟨hfree, hnew⟩ := htaken
      refine ih h ⟨?_, ?_⟩
      · refine List.pairwise_append.mpr ⟨hadmitted.distinct, List.pairwise_singleton _ _, ?_⟩
        intro a ha b hb
        obtain rfl := List.mem_singleton.mp hb
        rw [Value.at?, Option.isSome_map, Option.isSome_eq_false_iff, Option.isNone_iff_eq_none,
          List.find?_eq_none] at hnew
        exact Bool.eq_false_iff.mpr (hnew a ha)
      · intro a ha s hs
        rcases List.mem_append.mp ha with ha | ha
        · exact hadmitted.free a ha s hs
        · obtain rfl := List.mem_singleton.mp ha
          rw [hs, Option.any_some] at hfree
          exact fun hs => Bool.eq_false_iff.mp hfree (List.contains_iff_mem.mpr hs)

/-- Every record that a call makes is admitted. -/
theorem admitted_record {c : Call} {logger : Value} {options : Options} {r : Record}
    (h : c.record logger options = .ok r) : r.Admitted := by
  rw [record] at h
  split at h
  · cases h
  split at h
  · cases h
  simp only [withExtra] at h
  split at h
  · cases h
    exact ⟨.nil, fun a ha => absurd ha List.not_mem_nil⟩
  · obtain ⟨keys, -, h⟩ := bind_eq_ok_iff.mp h
    exact admitted_addExtras h ⟨.nil, fun a ha => absurd ha List.not_mem_nil⟩

end Call

end Clearance.Log
