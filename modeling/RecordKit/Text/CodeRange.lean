/-!
# Ranges of code points

A property of characters is kept as the ranges of the code points that have it.
-/

namespace RecordKit.Text

/-- Ranges of code points, ends included. -/
abbrev CodeRanges := List (Nat × Nat)

/-- Whether the code point of a character lies in one of the ranges. -/
def CodeRanges.contains (ranges : CodeRanges) (c : Char) : Bool :=
  ranges.any fun r => r.1 ≤ c.toNat && c.toNat ≤ r.2

end RecordKit.Text
