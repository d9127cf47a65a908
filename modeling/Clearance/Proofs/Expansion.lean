import Clearance.Closure
import Clearance.Proofs.Run
import Clearance.Proofs.Value.Names

/-! What held names are expanded to.

Expansion is one step: to what is held it adds what the held credentials imply. Over
names it always answers, in ascending order, and `expandHeld_outcome` says with which
names. That one step is enough when the credentials are closed is said where they are. -/
namespace Clearance

/-- The credential of a name, which is found by its text. -/
theorem find?_name_congr (compiled : List Capability) {v : Value} (h : v.IsName) :
    compiled.find? (·.name == v) = compiled.find? (·.name == .text v.word) := by
  refine congrArg (compiled.find? ·) (funext fun c => ?_)
  rw [Bool.eq_iff_iff, Value.beq_eq_same, Value.beq_eq_same, Value.same_iff_of_isName_right h,
    Value.same_iff_of_isName_right (Value.isName_text _), Value.word_text]

/-- What a held name adds: everything that its credential implies. -/
def addedBy (compiled : List Capability) (name : Value) : List Value :=
  match compiled.find? (·.name == name) with
  | some c => Value.distinct c.links.implies
  | none => []

section

variable {compiled : List Capability}
  (hnames : ∀ c ∈ compiled, ∀ v ∈ c.links.implies, v.IsName)
include hnames

theorem isName_of_mem_addedBy (name : Value) : ∀ v ∈ addedBy compiled name, v.IsName := by
  unfold addedBy
  split
  · rename_i c hfind
    exact Value.isName_of_mem_distinct (hnames c (List.mem_of_find?_eq_some hfind))
  · simp

theorem mem_map_word_addedBy {name : Value} {s : String} :
    s ∈ (addedBy compiled name).map Value.word ↔
      ∃ c, compiled.find? (·.name == name) = some c ∧ s ∈ c.links.implies.map Value.word := by
  unfold addedBy
  split
  · rename_i c hfind
    have hc := hnames c (List.mem_of_find?_eq_some hfind)
    rw [Value.mem_map_word_distinct hc, hfind]
    simp
  · rename_i hfind
    rw [hfind]
    simp

/-- What several held names add, told by their texts. -/
theorem mem_map_word_added {names : List Value} (h : ∀ v ∈ names, v.IsName) {s : String} :
    s ∈ (names.map (addedBy compiled)).flatten.map Value.word ↔
      ∃ a ∈ names.map Value.word, ∃ c, compiled.find? (·.name == .text a) = some c ∧
        s ∈ c.links.implies.map Value.word := by
  rw [List.map_flatten, List.mem_flatten]
  simp only [List.mem_map (l := names), List.mem_map (f := List.map Value.word)]
  constructor
  · rintro ⟨_, ⟨_, ⟨v, hv, rfl⟩, rfl⟩, hs⟩
    rw [mem_map_word_addedBy hnames, find?_name_congr compiled (h v hv)] at hs
    exact ⟨v.word, ⟨v, hv, rfl⟩, hs⟩
  · rintro ⟨_, ⟨v, hv, rfl⟩, hs⟩
    rw [← find?_name_congr compiled (h v hv), ← mem_map_word_addedBy hnames] at hs
    exact ⟨_, ⟨_, ⟨v, hv, rfl⟩, rfl⟩, hs⟩

/-- Asking the credentials for what held names imply always answers. -/
theorem mapM_impliedBy (names : List Value) :
    (names.mapM fun name => do
      match ← impliedBy compiled name with
      | none => pure []
      | some implied => orMismatch implied.distinctMembers?) =
      .ok (names.map (addedBy compiled)) := by
  rw [mapM_eq_ok_iff, List.forall₂_map_right_iff, List.forall₂_same]
  intro name _
  unfold impliedBy addedBy
  cases hfind : compiled.find? (·.name == name) with
  | none => rfl
  | some c =>
    have hkeys := Value.allHashable_of_names (hnames c (List.mem_of_find?_eq_some hfind))
    simp [bind, Except.bind, Value.distinctMembers?, hkeys, orMismatch]

/-- Expansion of names sorts them together with what they add. -/
theorem expandHeld_of_names {held : Value} {items : List Value}
    (hheld : held.members? = some items) (hitems : ∀ v ∈ items, v.IsName) :
    expandHeld (impliedBy compiled) held = orMismatch (Value.sort? (Value.distinct
      (Value.distinct items ++ ((Value.distinct items).map (addedBy compiled)).flatten))) := by
  have hstart : held.distinctMembers? = some (Value.distinct items) := by
    simp [Value.distinctMembers?, hheld, Value.allHashable_of_names hitems]
  unfold expandHeld
  rw [hstart]
  exact congrArg (· >>= fun added : List (List Value) =>
    orMismatch (Value.sort? (Value.distinct (Value.distinct items ++ added.flatten))))
    (mapM_impliedBy hnames (Value.distinct items))

theorem isName_of_mem_added (names : List Value) :
    ∀ v ∈ (names.map (addedBy compiled)).flatten, v.IsName := by
  simp only [List.forall_mem_flatten, List.forall_mem_map]
  exact fun name _ => isName_of_mem_addedBy hnames name

/-- **One step of expansion.** Names expand to names in ascending order: the held ones,
and what the credentials among them imply. -/
theorem expandHeld_outcome {held : Value} {items : List Value}
    (hheld : held.members? = some items) (hitems : ∀ v ∈ items, v.IsName) :
    ∃ expanded, expandHeld (impliedBy compiled) held = .ok expanded ∧
      (∀ v ∈ expanded, v.IsName) ∧ Ascending.Strict (expanded.map Value.word) ∧
      ∀ s, s ∈ expanded.map Value.word ↔ ∃ a ∈ items.map Value.word, a = s ∨
        ∃ c, compiled.find? (·.name == .text a) = some c ∧
          s ∈ c.links.implies.map Value.word := by
  have hdistinct := Value.isName_of_mem_distinct hitems
  have hall := List.forall_mem_append.mpr
    ⟨hdistinct, isName_of_mem_added hnames (Value.distinct items)⟩
  obtain ⟨sorted, hsort, hperm, hwords⟩ := Value.sort?_of_names (Value.isName_of_mem_distinct hall)
  refine ⟨sorted, by rw [expandHeld_of_names hnames hheld hitems, hsort]; rfl, ?_, ?_, ?_⟩
  · exact fun v hv => Value.isName_of_mem_distinct hall v (hperm.mem_iff.mp hv)
  · rw [hwords]
    exact Value.strict_sortedWords (Value.nodup_map_word_distinct hall)
  · intro s
    rw [(hperm.map Value.word).mem_iff, Value.mem_map_word_distinct hall, List.map_append,
      List.mem_append, mem_map_word_added hnames hdistinct]
    simp only [Value.mem_map_word_distinct hitems, and_or_left, exists_or, exists_eq_right]

end

/-! ## Credentials that imply all they lead to -/

section

variable {compiled : List Capability} {Leads : String → String → Prop}
  (hkeys : ∀ c ∈ compiled, c.name.IsName)
  (hleads : ∀ c ∈ compiled, ∀ s, s ∈ c.links.implies.map Value.word ↔ Leads c.name.word s)
include hkeys hleads

/-- What the credential of a name implies is what the name leads to, if it is declared. -/
theorem exists_implies_iff {a s : String} :
    (∃ c, compiled.find? (·.name == .text a) = some c ∧ s ∈ c.links.implies.map Value.word) ↔
      (a ∈ compiled.map fun c => c.name.word) ∧ Leads a s := by
  have hname : ∀ c : Capability, (c.name == Value.text a) = true ↔ c.name.text? = some a := by
    intro c
    rw [Value.beq_eq_same, Value.same_iff_of_isName_right (Value.isName_text a), Value.word_text]
  have hfound : ∀ c, compiled.find? (·.name == .text a) = some c →
      c ∈ compiled ∧ c.name.word = a := by
    intro c hfind
    have hsame := List.find?_some hfind
    exact ⟨List.mem_of_find?_eq_some hfind,
      (Value.text?_eq_some_iff.mp ((hname c).mp hsame)).2⟩
  constructor
  · rintro ⟨c, hfind, hs⟩
    obtain ⟨hc, rfl⟩ := hfound c hfind
    exact ⟨List.mem_map_of_mem hc, (hleads c hc s).mp hs⟩
  · rintro ⟨hdeclared, hs⟩
    obtain ⟨d, hd, hword⟩ := List.mem_map.mp hdeclared
    have hsome : (compiled.find? (·.name == .text a)).isSome = true :=
      List.find?_isSome.mpr ⟨d, hd, (hname d).mpr (hword ▸ (hkeys d hd).text?)⟩
    obtain ⟨c, hfind⟩ := Option.isSome_iff_exists.mp hsome
    obtain ⟨hc, rfl⟩ := hfound c hfind
    exact ⟨c, hfind, (hleads c hc s).mpr hs⟩

variable (hnames : ∀ c ∈ compiled, ∀ v ∈ c.links.implies, v.IsName)
include hnames

/-- Names expand to themselves and everything that the declared ones among them lead to. -/
theorem expandHeld_of_leads {held : Value} {items : List Value}
    (hheld : held.members? = some items) (hitems : ∀ v ∈ items, v.IsName) :
    ∃ expanded, expandHeld (impliedBy compiled) held = .ok expanded ∧
      (∀ v ∈ expanded, v.IsName) ∧ Ascending.Strict (expanded.map Value.word) ∧
      ∀ s, s ∈ expanded.map Value.word ↔ ∃ a ∈ items.map Value.word, a = s ∨
        ((a ∈ compiled.map fun c => c.name.word) ∧ Leads a s) := by
  obtain ⟨expanded, hexpand, hexpanded, hstrict, hwords⟩ :=
    expandHeld_outcome hnames hheld hitems
  refine ⟨expanded, hexpand, hexpanded, hstrict, fun s => (hwords s).trans ?_⟩
  simp only [exists_implies_iff hkeys hleads]

/-- Names in ascending order stay as they are when they hold all that they lead to. -/
theorem expandHeld_of_closed {names : List Value} (h : ∀ v ∈ names, v.IsName)
    (hstrict : Ascending.Strict (names.map Value.word))
    (hclosed : ∀ a ∈ names.map Value.word, (a ∈ compiled.map fun c => c.name.word) →
      ∀ s, Leads a s → s ∈ names.map Value.word) :
    expandHeld (impliedBy compiled) (.tuple names) = .ok names := by
  have hadded : (names.map (addedBy compiled)).flatten.map Value.word ⊆
      names.map Value.word := by
    intro s hs
    obtain ⟨a, ha, himplied⟩ := (mem_map_word_added hnames h).mp hs
    obtain ⟨hdeclared, hlead⟩ := (exists_implies_iff hkeys hleads).mp himplied
    exact hclosed a ha hdeclared s hlead
  rw [expandHeld_of_names hnames (Value.members?_tuple names) h,
    Value.distinct_of_nodup_word h hstrict.nodup,
    Value.distinct_append_of_subset h (isName_of_mem_added hnames names) hstrict.nodup hadded,
    Value.sort?_of_strict h hstrict]
  rfl

end

end Clearance
