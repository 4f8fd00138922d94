import Curly.Service.Cluster
import Curly.Text.Line
import Curly.Text.Position

/-!
# Backspaces

A text in which a backspace takes back what was typed before it, cluster by cluster. With nothing
left to take back, a backspace does nothing. The lengths of clusters are kept in one byte: of a
cluster of 256 bytes or more only the last bytes go, as many as its length has above the multiple
of 256 below it.
-/

namespace Curly.Text

/-- What has been typed. -/
structure Typed where
  /-- The text, backwards. -/
  back : List Char
  /-- The lengths of the clusters that can be taken back, in bytes, the last one first. -/
  lengths : List Nat

/-- A list of characters without those that begin within its first bytes. -/
def dropBytes : Nat → List Char → List Char
  | 0, cs => cs
  | _ + 1, [] => []
  | n + 1, c :: cs => dropBytes (n + 1 - c.utf8Size) cs

namespace Typed

/-- What has been typed after one more cluster. -/
def add (t : Typed) (cluster : List Char) : Typed :=
  if cluster = [backspace] then
    match t.lengths with
    | [] => t
    | n :: lengths => ⟨dropBytes n t.back, lengths⟩
  else ⟨cluster.reverse ++ t.back, byteLength cluster % 256 :: t.lengths⟩

end Typed

/-- A text as it reads after its backspaces; without any it stays as it is. -/
def applyBackspaces (cs : List Char) : List Char :=
  if cs.contains backspace then ((clusters cs).foldl Typed.add ⟨[], []⟩).back.reverse else cs

end Curly.Text
