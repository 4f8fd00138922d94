/-!
# Line tables

The bytes at which the lines of a text start, found once by reading the text. They rise, so that
the line of a byte is found by halving the table.
-/

namespace Curly.Text

/-- The bytes after the line feeds of a text that starts at byte `offset`. -/
def startsAfter (offset : Nat) : List Char → List Nat
  | [] => []
  | c :: cs =>
    let next := offset + c.utf8Size
    if c = '\n' then next :: startsAfter next cs else startsAfter next cs

/-- The bytes at which the lines of a text start: the first one, and the one after each line
feed. -/
def lineStarts (cs : List Char) : Array Nat := (0 :: startsAfter 0 cs).toArray

/-- The index from `lo` to `hi` of the first element that `p` fails for, if `p` holds of all
elements before `lo` and of none from `hi` on. -/
def search {α : Type} (p : α → Bool) (xs : Array α) (lo hi : Nat) (bound : hi ≤ xs.size) : Nat :=
  if h : lo < hi then
    let mid := lo + (hi - lo) / 2
    if p xs[mid] then search p xs (mid + 1) hi bound else search p xs lo mid (by omega)
  else lo
  termination_by hi - lo

/-- The number of elements that `p` holds of, in an array where these come first. -/
def partitionPoint {α : Type} (p : α → Bool) (xs : Array α) : Nat :=
  search p xs 0 xs.size (Nat.le_refl _)

end Curly.Text
