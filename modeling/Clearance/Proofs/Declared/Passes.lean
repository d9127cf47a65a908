import Clearance.Proofs.Compiled
import Clearance.Proofs.Graph.Doubling

/-! How many passes compiling takes.

Compiling repeats passes until one changes nothing, without a counter. That it stops, and how
soon, is known of graphs of texts (`Graph.close_eq_iterate`); here it is read back on the pass
number that a compiled mapping logs. -/
namespace Clearance.Declared

variable {source : Declared}

theorem length_of_represents {g : Graph Value} (hg : Represents g source) :
    g.length = source.length := by
  simpa [Graph.names] using congrArg List.length hg.names

/-- **Compiling stops soon.** Passes are made over the graph of a mapping that lists nothing but
its keys until one changes nothing. That is at the latest the pass whose number exceeds the
logarithm of the number of credentials, rounded up, by three, and its number is what is logged. -/
theorem compile_passes_le (h : source.Complete) (owner : Value) :
    ∃ g passes, source.graph = .ok g ∧ passes ≤ Nat.clog 2 source.length + 3 ∧
      (∃ last, passes = last + 1 ∧ (Graph.pass^[passes] g == Graph.pass^[last] g) = true ∧
        ∀ j < last, (Graph.pass^[j + 1] g == Graph.pass^[j] g) = false) ∧
      source.compile owner =
        ⟨[.logged ⟨.closure, .debug, compiledText owner source.length passes, none⟩],
          .ok (source.capabilities (Graph.pass^[passes] g))⟩ := by
  obtain ⟨g, hgraph, hg, hcompile⟩ := compile_of_known h.wellFormed h.known owner
  obtain ⟨last, hle, hstop, hchange, hclose⟩ := Graph.close_eq_iterate Value.faithful_word
    hg.within (wellFormed_of_represents h.wellFormed hg h.known)
  rw [length_of_represents hg] at hle
  refine ⟨g, last + 1, hgraph, by omega, ⟨last, rfl, hstop, hchange⟩, ?_⟩
  rw [hcompile, hclose]

/-- Three credentials are compiled in at most five passes. -/
theorem compile_mutualGrants_passes : mutualGrants.Complete ∧ ∃ passes compiled, passes ≤ 5 ∧
    mutualGrants.compile (.text "Thing") =
      ⟨[.logged ⟨.closure, .debug, compiledText (.text "Thing") 3 passes, none⟩],
        .ok compiled⟩ := by
  obtain ⟨g, passes, -, hle, -, hcompile⟩ := compile_passes_le complete_mutualGrants (.text "Thing")
  have hlog : Nat.clog 2 mutualGrants.length ≤ 2 := Nat.clog_le_of_le_pow (by decide)
  exact ⟨complete_mutualGrants, passes, _, by omega, hcompile⟩

end Clearance.Declared
