import RecordSkeleton.Text.Basic

/-!
# Sets of code points

A character class is given by the closed ranges of its code points.
-/

namespace RecordSkeleton.Text

/-- A set of code points, as closed ranges in increasing order. -/
abbrev CodeRanges := List (Nat × Nat)

/-- Whether the set holds the code point of a character. -/
def CodeRanges.covers (rs : CodeRanges) (c : Char) : Bool :=
  rs.any fun r => r.1 ≤ c.toNat && c.toNat ≤ r.2

end RecordSkeleton.Text
