/-
  Classes of characters given by ranges of code points.

  * `Text.Range`: the first and the last code point of a range;
  * `Text.inRanges`: membership of a character in a list of ranges.
-/

namespace ObjectFeed.Text

/-- The first and the last code point of a range. -/
abbrev Range := Nat × Nat

/-- Membership in one of the ranges, both ends included. -/
def inRanges (ranges : List Range) (c : Char) : Bool :=
  ranges.any fun (first, last) => first ≤ c.toNat && c.toNat ≤ last

end ObjectFeed.Text
