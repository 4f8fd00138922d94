import Curly.Text.Line
import Curly.Text.LineTable
import Curly.Text.Position

/-!
# Sources

A source is a text with the name that messages give it. Bytes of the text are turned into
positions, lines into their texts, and spans into the pieces they cover. Positions and lines are
looked up in the table of the bytes at which the lines start.
-/

namespace Curly

/-- The name of a text that no file holds. -/
def interactiveName : String := "<repl>"

/-- A text and the name it goes by. -/
structure Source where
  name : String
  text : String
  deriving DecidableEq, Inhabited

namespace Source

/-- A text typed in rather than read from a file. -/
def interactive (text : String) : Source := ⟨interactiveName, text⟩

/-- Whether the text was typed in. -/
def isInteractive (src : Source) : Bool := src.name == interactiveName

/-- The characters of the text. -/
def chars (src : Source) : List Char := src.text.toList

/-- The length in bytes. -/
def byteLength (src : Source) : Nat := src.text.utf8ByteSize

/-- The position at the end of the text. -/
def stop (src : Source) : Position := Position.origin.after src.chars

/-- The byte at which each line starts. -/
def lineStarts (src : Source) : Array Nat := Text.lineStarts src.chars

/-- The number of lines. -/
def lineCount (src : Source) : Nat := src.lineStarts.size

/-- The first `n` bytes of a text and the rest of it, if a character ends there. -/
def splitBytes? : Nat → List Char → Option (List Char × List Char)
  | 0, cs => some ([], cs)
  | _ + 1, [] => none
  | n + 1, c :: cs =>
    if c.utf8Size ≤ n + 1 then
      (splitBytes? (n + 1 - c.utf8Size) cs).map fun (front, back) => (c :: front, back)
    else none

/-- The characters between two bytes, if they lie in the text, come in this order and cut no
character. -/
def between? (src : Source) (start stop : Nat) : Option (List Char) := do
  if stop < start then none
  let (_, back) ← splitBytes? start src.chars
  let (front, _) ← splitBytes? (stop - start) back
  return front

/-- The piece of text that a span covers, if it lies in the text, runs forwards and cuts no
character. -/
def slice? (src : Source) (span : Span) : Option String :=
  (src.between? span.start.offset span.stop.offset).map String.ofList

/-- The line counted from zero without its line feed, if the text has it: it ends before the byte
that the next line starts at, and the last one where the text ends. -/
def line? (src : Source) (n : Nat) : Option (List Char) := do
  let start ← src.lineStarts[n]?
  let stop := (src.lineStarts[n + 1]?.map (· - 1)).getD src.byteLength
  src.between? start stop

/-- The text of a line counted from one, without its line end and without a carriage return
before it; empty for a line that the text does not have. -/
def lineText (src : Source) : Nat → String
  | 0 => ""
  | n + 1 => String.ofList (Text.dropEnd '\r' ((src.line? n).getD []))

/-- The position of a byte, the end of the text for any byte beyond it: its line is the last one
that starts up to it, and its column counts the characters from there. There is none inside a
character of several bytes. -/
def position? (src : Source) (offset : Nat) : Option Position := do
  let offset := min offset src.byteLength
  let line := Text.partitionPoint (· ≤ offset) src.lineStarts
  let start ← src.lineStarts[line - 1]?
  let before ← src.between? start offset
  return ⟨line, before.length + 1, offset⟩

/-- The span between two bytes. -/
def span? (src : Source) (start stop : Nat) : Option Span := do
  return ⟨← src.position? start, ← src.position? stop⟩

end Source

end Curly
