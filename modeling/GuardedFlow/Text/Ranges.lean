/-!
# Classes of characters

A class of characters is a list of closed ranges of code points, ascending and apart.
-/

namespace GuardedFlow.Text

/-- Whether a code point lies in one of the ranges. -/
def inRanges (ranges : List (Nat × Nat)) (n : Nat) : Bool :=
  ranges.any fun r => r.1 ≤ n && n ≤ r.2

/-- Whether a character belongs to a class. -/
def belongs (ranges : List (Nat × Nat)) (c : Char) : Bool := inRanges ranges c.toNat

end GuardedFlow.Text
