import Curly.Journal

/-!
# Editors of lines

A session gets its lines from an editor, which asks for them with a prompt and remembers those it
is told to. What the editor does for it, and on what kind of terminal, is not for the session to
say.
-/

namespace Curly.Session

/-- What asking for a line comes to. -/
inductive Asked
  | line (text : String)
  /-- There are no more lines. -/
  | ended
  /-- The line has been given up. -/
  | interrupted
  | failed (reason : String)
  deriving DecidableEq

/-- The outcome of a call, and what the one who was called has for the journal. -/
structure Noted (α : Type) where
  outcome : α
  notes : List Journal.Entry

/-- An editor of lines. -/
structure Editor (m : Type → Type) where
  /-- Makes ready for a session that is to remember so many lines, but none that starts with a
  blank. -/
  start : Nat → m (Noted (Except String Unit))
  /-- Remembers the lines in a file. -/
  load : String → m (Noted (Except String Unit))
  /-- Asks for a line with this prompt. -/
  ask : String → m (Noted Asked)
  /-- Remembers a line. -/
  remember : String → m (Noted (Except String Unit))
  /-- Writes the lines that are remembered to a file. -/
  save : String → m (Noted (Except String Unit))

end Curly.Session
