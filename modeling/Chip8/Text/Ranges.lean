/-!
# Classes of characters

A class of characters is given by a table of ranges of code points, ends included, in ascending
order and apart from one another.
-/

namespace Chip8.Text

/-- Does the class hold the character? -/
def inRanges (ranges : List (Nat × Nat)) (c : Char) : Bool :=
  ranges.any fun range => range.1 ≤ c.toNat && c.toNat ≤ range.2

/-- Are the ranges nonempty, ascending and apart, so that each class has one table? -/
def isAscending : List (Nat × Nat) → Bool
  | [] => true
  | [range] => range.1 ≤ range.2
  | range :: next :: rest =>
    range.1 ≤ range.2 && range.2 + 1 < next.1 && isAscending (next :: rest)

end Chip8.Text
