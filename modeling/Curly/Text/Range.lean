/-!
# Ranges of characters

Properties of characters are given as ascending ranges of code points.
-/

namespace Curly.Text

/-- Whether `n` lies in one of the ascending ranges, whose ends belong to them. -/
def inRanges (ranges : List (Nat × Nat)) (n : Nat) : Bool :=
  (ranges.takeWhile (·.1 ≤ n)).getLast?.any (n ≤ ·.2)

end Curly.Text
