import Clearance.Proofs.Compiled
import Clearance.Proofs.Expansion
import Mathlib.Order.Bounds.Basic

/-! Held names over compiled credentials.

Expanding looks up each held name once and follows nothing that it finds there. Compiled
credentials imply whatever a path leads to from their names, so one look is enough:
`expandHeld_isLeast` says that expanding arrives at the smallest set that holds the names and
that no path leads out of. -/
namespace Clearance

namespace Declared

/-- A set of texts that no path leads out of: with a key it holds every name that the key
grants. Texts that are no keys may stand in it too. -/
def Confines (source : Declared) (S : Set String) : Prop :=
  ∀ a ∈ S, (a ∈ source.map fun e => e.1.word) →
    ∀ b, Relation.TransGen source.Lists.Grants a b → b ∈ S

variable {source : Declared} {compiled : List Capability}

/-- The texts of some names, and whatever their keys grant, are the smallest set around them
that no path leads out of. -/
theorem isLeast_confines {names : Set String} {S : Set String}
    (hS : ∀ s, s ∈ S ↔ ∃ a ∈ names, a = s ∨
      ((a ∈ source.map fun e => e.1.word) ∧ Relation.TransGen source.Lists.Grants a s)) :
    IsLeast {T | names ⊆ T ∧ source.Confines T} S := by
  refine ⟨⟨fun a ha => (hS a).mpr ⟨a, ha, .inl rfl⟩, ?_⟩, ?_⟩
  · -- a path on from where a path led to is a path from the same held name
    intro s hs hkey b hp
    obtain ⟨a, ha, rfl | ⟨hdeclared, hfirst⟩⟩ := (hS s).mp hs
    · exact (hS b).mpr ⟨a, ha, .inr ⟨hkey, hp⟩⟩
    · exact (hS b).mpr ⟨a, ha, .inr ⟨hdeclared, hfirst.trans hp⟩⟩
  · rintro T ⟨hnames, hconfines⟩ s hs
    obtain ⟨a, ha, rfl | ⟨hdeclared, hp⟩⟩ := (hS s).mp hs
    · exact hnames ha
    · exact hconfines a (hnames ha) hdeclared s hp

namespace Closes

variable (h : source.WellFormed) (hc : Closes source compiled)
include h hc

/-- Names expand to themselves and everything that a path of grants leads to from a key among
them. -/
theorem expandHeld_outcome {held : Value} {items : List Value}
    (hheld : held.members? = some items) (hitems : ∀ v ∈ items, v.IsName) :
    ∃ expanded, expandHeld (impliedBy compiled) held = .ok expanded ∧
      (∀ v ∈ expanded, v.IsName) ∧ Ascending.Strict (expanded.map Value.word) ∧
      ∀ s, s ∈ expanded.map Value.word ↔ ∃ a ∈ items.map Value.word, a = s ∨
        ((a ∈ source.map fun e => e.1.word) ∧
          Relation.TransGen source.Lists.Grants a s) := by
  rw [← hc.map_word]
  exact expandHeld_of_leads (fun c hmem => hc.isName h hmem)
    (fun c hmem => hc.lists c hmem .implies) (fun c hmem => hc.names c hmem .implies) hheld hitems

/-- What no path leads out of is left as it is. -/
theorem expandHeld_of_confines {names : List Value} (hnames : ∀ v ∈ names, v.IsName)
    (hstrict : Ascending.Strict (names.map Value.word))
    (hconfines : source.Confines {s | s ∈ names.map Value.word}) :
    expandHeld (impliedBy compiled) (.tuple names) = .ok names := by
  refine expandHeld_of_closed (fun c hmem => hc.isName h hmem)
    (fun c hmem => hc.lists c hmem .implies) (fun c hmem => hc.names c hmem .implies) hnames
    hstrict ?_
  rw [hc.map_word]
  exact hconfines

end Closes

/-- **Expanding closes what is held.** Over compiled credentials every collection of names,
declared or not, expands to names in strictly ascending order, and these are the smallest set
that holds the given ones and everything that a path of the declared relations leads to from a
declared member. So every held name is among them and all others are declared, whoever holds
more names has more to expand to, and expanding once more changes nothing. -/
theorem expandHeld_isLeast (h : source.WellFormed) {owner : Value}
    (hok : (source.compile owner).outcome = .ok compiled) {held : Value} {items : List Value}
    (hheld : held.members? = some items) (hitems : ∀ v ∈ items, v.IsName) :
    ∃ expanded, expandHeld (impliedBy compiled) held = .ok expanded ∧
      Ascending.Strict expanded ∧
      IsLeast {S | {s | s ∈ items.map Value.word} ⊆ S ∧ source.Confines S}
        {s | s ∈ expanded.map Value.word} ∧
      (∀ v ∈ items, Value.memberOf v expanded = true) ∧
      (∀ v ∈ expanded, v.IsName ∧
        (Value.memberOf v items = true ∨ v.word ∈ source.map fun e => e.1.word)) ∧
      (∀ held' items', held'.members? = some items' → (∀ v ∈ items', v.IsName) →
        items.map Value.word ⊆ items'.map Value.word →
        ∃ expanded', expandHeld (impliedBy compiled) held' = .ok expanded' ∧
          expanded.map Value.word ⊆ expanded'.map Value.word) ∧
      expandHeld (impliedBy compiled) (.tuple expanded) = .ok expanded := by
  obtain ⟨hknown, hc⟩ := closes_of_compile h hok
  obtain ⟨expanded, hexpand, hnames, hstrict, hwords⟩ := hc.expandHeld_outcome h hheld hitems
  have hleast : IsLeast {S | {s | s ∈ items.map Value.word} ⊆ S ∧ source.Confines S}
      {s | s ∈ expanded.map Value.word} := isLeast_confines hwords
  refine ⟨expanded, hexpand, ?_, hleast, ?_, ?_, ?_, ?_⟩
  · exact Value.strict_of_map_word hnames hstrict
  · intro v hv
    rw [Value.memberOf_iff (hitems v hv), ← Value.mem_map_word hnames]
    exact hleast.1.1 (List.mem_map_of_mem hv)
  · intro v hv
    refine ⟨hnames v hv, ?_⟩
    rw [Value.memberOf_iff (hnames v hv), ← Value.mem_map_word hitems]
    obtain ⟨a, ha, rfl | ⟨-, hp⟩⟩ := (hwords v.word).mp (List.mem_map_of_mem hv)
    · exact .inl ha
    · exact .inr (Closes.known_of_path hknown (r := .implies) hp)
  · intro held' items' hheld' hitems' hsub
    obtain ⟨expanded', hexpand', -, -, hwords'⟩ := hc.expandHeld_outcome h hheld' hitems'
    refine ⟨expanded', hexpand', fun s hs => ?_⟩
    obtain ⟨a, ha, hlead⟩ := (hwords s).mp hs
    exact (hwords' s).mpr ⟨a, hsub ha, hlead⟩
  · exact hc.expandHeld_of_confines h hnames hstrict hleast.1.2

/-- Whoever views things and audits them, which nothing declares, may read by way of editing
rights too: in `mutualGrants` reading is a child of viewing. -/
theorem expandHeld_mutualGrants : mutualGrants.WellFormed ∧ ∃ compiled expanded,
    (mutualGrants.compile (.text "Thing")).outcome = .ok compiled ∧
      expandHeld (impliedBy compiled) (.ofNames ["view", "audit"]) = .ok expanded ∧
      Value.memberOf (.text "audit") expanded = true ∧ "read" ∈ expanded.map Value.word := by
  have hwell := complete_mutualGrants.wellFormed
  obtain ⟨compiled, hok, -⟩ := (compile_outcome hwell (.text "Thing")).2 complete_mutualGrants.known
  have hheld : (Value.ofNames ["view", "audit"]).members? =
      some [.text "view", .text "audit"] := rfl
  obtain ⟨expanded, hexpand, -, ⟨⟨hsub, hconfines⟩, -⟩, hmem, -⟩ :=
    expandHeld_isLeast hwell hok hheld (by simp)
  refine ⟨hwell, compiled, expanded, hok, hexpand, hmem _ (by simp), ?_⟩
  refine hconfines "view" (hsub (by simp)) (by simp [mutualGrants]) "read" (.single ?_)
  exact .inr (.inr (.inr ⟨_, .tail _ (.tail _ (.head _)), rfl, _, rfl, _, .head _, rfl⟩))

end Declared

end Clearance
