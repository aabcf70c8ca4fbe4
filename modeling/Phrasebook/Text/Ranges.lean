/-!
# Sets of characters given by ranges

Unicode properties are tables of ranges of code points, both ends included.
-/

namespace Phrasebook.Text

/-- Whether a character lies in one of the ranges. -/
def inRanges (ranges : List (Nat × Nat)) (c : Char) : Bool :=
  ranges.any fun range => range.1 ≤ c.toNat && c.toNat ≤ range.2

end Phrasebook.Text
