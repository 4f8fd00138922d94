import Curly.Text.Source

/-!
# Diagnostics

A message about a span of a source is shown with the line on which the span starts, and with
marks below the part of that line that the span covers.
-/

namespace Curly

/-- A message about a span of a source. -/
structure Diagnostic where
  message : String
  span : Span
  deriving DecidableEq

namespace Diagnostic

/-- The number of marks below a line: the columns that the span covers on it, and at least one.
A span that ends on another line is cut at the end of this one. -/
def markCount (span : Span) (line : String) : Nat :=
  let first := max span.start.column 1
  let last := if span.stop.line = span.start.line then span.stop.column else line.length + 1
  max (last - first) 1

/-- Blanks up to the column where the span starts, then the marks. -/
def marks (indicator : Char) (span : Span) (line : String) : String :=
  String.ofList
    (List.replicate (span.start.column - 1) ' ' ++
      List.replicate (markCount span line) indicator)

/-- The source's name and the line's number, the line, the marks and the message. -/
def renderWith (indicator : Char) (d : Diagnostic) (src : Source) : String :=
  let line := src.lineText d.span.start.line
  "  File " ++ src.name ++ ", line " ++ toString d.span.start.line ++ "\n" ++ line ++ "\n" ++
    marks indicator d.span line ++ "\n" ++ d.message

/-- A diagnostic marked with carets. -/
def render (d : Diagnostic) (src : Source) : String := d.renderWith '^' src

end Diagnostic

end Curly
