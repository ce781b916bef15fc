/-!
# Sets of characters given by ranges

A character class of the Unicode standard is written here as a list of ranges
of code points, both ends included. Membership is a linear search, so that it
unfolds by evaluation.
-/

namespace Switchboard.Text

/-- Code points given by ranges, both ends included. -/
abbrev Ranges := List (Nat × Nat)

namespace Ranges

def contains (ranges : Ranges) (c : Char) : Bool :=
  ranges.any fun range => range.1 ≤ c.toNat && c.toNat ≤ range.2

theorem contains_iff (ranges : Ranges) (c : Char) :
    ranges.contains c = true ↔ ∃ range ∈ ranges, range.1 ≤ c.toNat ∧ c.toNat ≤ range.2 := by
  simp [contains]

end Ranges

end Switchboard.Text
