/-!
# Positions and spans

A position is counted by reading a text from its start: a line feed opens a new line, any other
character moves one column on, and every character adds its bytes to the offset. A span is the
stretch between two positions.
-/

namespace Curly

/-- The length of a text in bytes. -/
def Text.byteLength : List Char → Nat
  | [] => 0
  | c :: cs => c.utf8Size + byteLength cs

/-- A place in a text: line and column from one, bytes from zero. -/
structure Position where
  line : Nat
  column : Nat
  offset : Nat
  deriving DecidableEq, Inhabited

namespace Position

/-- The start of every text. -/
def origin : Position := ⟨1, 1, 0⟩

/-- The position after one more character. -/
def next (p : Position) (c : Char) : Position :=
  if c = '\n' then ⟨p.line + 1, 1, p.offset + c.utf8Size⟩
  else ⟨p.line, p.column + 1, p.offset + c.utf8Size⟩

/-- The position after a stretch of text. -/
def after (p : Position) (cs : List Char) : Position := cs.foldl next p

@[simp] theorem after_nil (p : Position) : p.after [] = p := rfl

@[simp] theorem after_cons (p : Position) (c : Char) (cs : List Char) :
    p.after (c :: cs) = (p.next c).after cs := rfl

@[simp] theorem after_append (p : Position) (cs ds : List Char) :
    p.after (cs ++ ds) = (p.after cs).after ds := List.foldl_append

/-- The position of byte `target` in the text `cs` that starts at `p`, and the end of the text
for a byte beyond it. There is none inside a character of several bytes. -/
def seek (p : Position) (target : Nat) : List Char → Option Position
  | [] => if p.offset ≤ target then some p else none
  | c :: cs =>
    if p.offset < target then (p.next c).seek target cs
    else if p.offset = target then some p
    else none

/-- Line and column, as messages give them. -/
def describe (p : Position) : String := toString p.line ++ ":" ++ toString p.column

end Position

/-- The stretch of text from `start` up to but not including `stop`. -/
structure Span where
  start : Position
  stop : Position
  deriving DecidableEq, Inhabited

namespace Span

/-- The empty span at `p`. -/
def point (p : Position) : Span := ⟨p, p⟩

/-- The bytes covered; none for a span that runs backwards. -/
def length (s : Span) : Nat := s.stop.offset - s.start.offset

/-- Whether both ends are at one byte. -/
def isEmpty (s : Span) : Bool := s.start.offset == s.stop.offset

/-- Both ends in brackets. -/
def describe (s : Span) : String := "[" ++ s.start.describe ++ " - " ++ s.stop.describe ++ "]"

end Span

end Curly
