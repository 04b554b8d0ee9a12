/-!
# Tables of code point ranges

A property of characters is stored as a list of closed ranges of code points.
-/

namespace SdkGlue.Text

/-- Closed ranges of code points, first and last. -/
abbrev Ranges := List (Nat × Nat)

def Ranges.contains (table : Ranges) (n : Nat) : Bool :=
  table.any fun r => r.1 ≤ n && n ≤ r.2

theorem Ranges.contains_iff {table : Ranges} {n : Nat} :
    table.contains n = true ↔ ∃ r ∈ table, r.1 ≤ n ∧ n ≤ r.2 := by
  simp [Ranges.contains]

end SdkGlue.Text
