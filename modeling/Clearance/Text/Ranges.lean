/-! Sets of characters given as ranges of code points.

A table is a list of inclusive ranges in ascending order; membership is a
linear search. -/
namespace Clearance.Text

/-- Inclusive ranges of code points, in ascending order. -/
abbrev Ranges := List (Nat × Nat)

/-- Whether some range of the table holds the code point. -/
def Ranges.holds (table : Ranges) (code : Nat) : Bool :=
  table.any fun range => range.1 ≤ code && code ≤ range.2

theorem Ranges.holds_iff {table : Ranges} {code : Nat} :
    table.holds code = true ↔ ∃ range ∈ table, range.1 ≤ code ∧ code ≤ range.2 := by
  simp [Ranges.holds]

end Clearance.Text
