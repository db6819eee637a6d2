/-!
# Sets of characters as ranges of code points

A set of characters is given by the inclusive ranges of code points that make it up. Membership
does not depend on the order of the ranges, and ranges may touch or overlap.
-/
namespace ToolchainChoice.Text

/-- Inclusive ranges of code points. -/
abbrev CodePoints := List (Nat × Nat)

namespace CodePoints

def has (ranges : CodePoints) (c : Char) : Bool :=
  ranges.any fun r => r.1 ≤ c.toNat && c.toNat ≤ r.2

theorem has_iff {ranges : CodePoints} {c : Char} :
    ranges.has c = true ↔ ∃ r ∈ ranges, r.1 ≤ c.toNat ∧ c.toNat ≤ r.2 := by
  simp [has]

end CodePoints

end ToolchainChoice.Text
