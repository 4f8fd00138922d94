/-!
# Lines

A line feed ends a line; the carriage return of a two-character line end goes with it.
`pieces` cuts a list at a separator and nowhere else, so there is always one piece more than
there are separators. The lines of a text are its pieces between line feeds as a reader of lines
sees them.
-/

namespace Curly.Text

/-- The pieces of a list between the separators, the last of which may be empty. -/
def pieces {α : Type} [DecidableEq α] (separator : α) (xs : List α) : List (List α) :=
  xs.foldr (fun x rest =>
    if x = separator then [] :: rest
    else match rest with
      | [] => [[x]]
      | piece :: rest => (x :: piece) :: rest) [[]]

/-- A list without a last element of this value. -/
def dropEnd {α : Type} [DecidableEq α] (last : α) (xs : List α) : List α :=
  if xs.getLast? = some last then xs.dropLast else xs

/-- The lines of a list: each piece but the last without the carriage return before its line
feed, and the last one as it stands unless it is empty. -/
def linesBy {α : Type} [DecidableEq α] (lineFeed carriageReturn : α) (xs : List α) :
    List (List α) :=
  let all := pieces lineFeed xs
  all.dropLast.map (dropEnd carriageReturn) ++
    all.getLast?.toList.filter fun piece => !piece.isEmpty

/-- The pieces of a text between its line feeds. -/
def segments (cs : List Char) : List (List Char) := pieces '\n' cs

/-- The lines of a text. -/
def lines (cs : List Char) : List (List Char) := linesBy '\n' '\r' cs

/-- The character by which what has been typed on a line is taken back. -/
def backspace : Char := '\x08'

end Curly.Text
