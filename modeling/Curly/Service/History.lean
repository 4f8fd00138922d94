import Curly.Journal
import Curly.Text.Line

/-!
# The history of a session

The lines given to a session, the oldest first and at most a fixed number of them. Lines that are
empty, that start with a blank or that repeat the line before are not kept. In its file every
entry takes one line, with line feeds and backslashes marked by a backslash, after a first line
that names the format. A file without that first line holds its entries as they are.
-/

namespace Curly.Session

/-- The lines that a session remembers. `fresh` tells whether any was added since the last
loading. -/
structure History where
  capacity : Nat
  entries : List String
  fresh : Bool
  deriving DecidableEq

namespace History

/-- No lines. -/
def empty (capacity : Nat) : History := ⟨capacity, [], false⟩

/-- Whether a line is kept after the lines there are. -/
def keeps (h : History) (line : String) : Bool :=
  h.capacity != 0 && !(line.toList.head?.elim true Text.isBlank) && h.entries.getLast? != some line

/-- The history with one more line, which drops the oldest beyond the capacity. -/
def add (h : History) (line : String) : History :=
  if h.keeps line then
    let entries := h.entries ++ [line]
    { h with entries := entries.drop (entries.length - h.capacity), fresh := true }
  else h

/-! ## The file -/

/-- The first line of a history file. -/
def formatLine : String := "#V2"

/-- An entry as it stands in a file. -/
def escape (entry : String) : String :=
  String.ofList (entry.toList.flatMap fun c =>
    if c = '\n' then ['\\', 'n'] else if c = '\\' then ['\\', '\\'] else [c])

/-- The entry that stands in a file so, if all its backslashes mark something. -/
def unescape? : List Char → Option (List Char)
  | [] => some []
  | '\\' :: 'n' :: cs => (unescape? cs).map ('\n' :: ·)
  | '\\' :: '\\' :: cs => (unescape? cs).map ('\\' :: ·)
  | '\\' :: _ => none
  | c :: cs => (unescape? cs).map (c :: ·)

/-- The text of a file with all entries. -/
def text (h : History) : String :=
  String.join ((formatLine :: h.entries.map escape).map (· ++ "\n"))

/-- The history with one more line of a file, which is escaped if `marked`, and what is noted
about a line that cannot be. -/
def addFileLine (marked : Bool) (h : History) (line : String) : History × List Journal.Entry :=
  if line.isEmpty then (h, [])
  else if marked then
    match unescape? line.toList with
    | some cs => (h.add (String.ofList cs), [])
    | none => (h.add line, [Journal.warn ("bad escaped line: " ++ line)])
  else (h.add line, [])

/-- The history with the lines of a file added, and what is noted about them. -/
def load (h : History) (lines : List String) : History × List Journal.Entry :=
  let (marked, h) :=
    match lines with
    | [] => (false, h)
    | first :: _ => if first == formatLine then (true, h) else (false, h.add first)
  lines.tail.foldl
    (fun (h, notes) line =>
      let (h, more) := addFileLine marked h line
      (h, notes ++ more))
    (h, [])

/-- The history whose lines are all accounted for. -/
def settled (h : History) : History := { h with fresh := false }

/-- Whether the history has something that its file has not. -/
def needsSaving (h : History) : Bool := !h.entries.isEmpty && h.fresh

end History

end Curly.Session
