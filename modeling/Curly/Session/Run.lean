import Curly.Journal
import Curly.Session.Block
import Curly.Version

/-!
# Sessions

A session is given lines one by one. Each line either joins the block that is open or closes it, in
which case the block is answered: its canonical text is printed, or its error is reported. What is
left open when the lines end is dropped. `Session.read` tells the effect of every line without
answering; what a line shows follows from the line and its effect.
-/

namespace Curly.Session

/-- The block that is open after a line with this effect. -/
def Effect.pending : Effect → String
  | .extend pending => pending
  | .quit | .skip | .submit _ => ""

/-- The effect of each line, in a session in which the block `pending` is open, and the block
that is left open. Nothing after the line that ends the session is read. -/
def read (pending : String) : List String → List (String × Effect) × String
  | [] => ([], pending)
  | line :: lines =>
    let effect := effect pending line
    if effect = .quit then ([(line, .quit)], "")
    else
      let (later, left) := read effect.pending lines
      ((line, effect) :: later, left)

/-- The blocks that are answered. -/
def blocks (effects : List (String × Effect)) : List String :=
  effects.filterMap fun
    | (_, .submit block) => some block
    | _ => none

/-! ## What is shown -/

/-- The text with which a session begins. -/
def banner : String :=
  languageName ++ " " ++ version ++ " REPL - blocks are echoed in canonical form\n" ++
    "Press Ctrl+D or type :quit to exit\n\n"

/-- The text for a line that has been given up. -/
def interruption : String := "(Interrupted)\n"

/-- Something that a session shows. -/
inductive Event
  /-- Text for the output. -/
  | print (text : String)
  /-- A message for the reports. -/
  | report (message : String)
  /-- An entry of the journal. -/
  | note (entry : Journal.Entry)
  deriving DecidableEq

/-- What is shown when a block is examined for completeness, which a blank line makes
needless. -/
def examination (line block : String) : List Event :=
  if Text.allBlank line.toList then []
  else (Journal.ofLexing (.interactive block)).map .note

/-- What is shown when a block is answered. -/
def answerEvents (style : Layout.Style) (block : String) : List Event :=
  (Journal.ofFormatting style (.interactive block)).map .note ++
    match answer style block with
    | .formatted text => [.print text]
    | .rejected diagnostic => [.report diagnostic]

/-- What a line with its effect shows. -/
def lineEvents (style : Layout.Style) : String × Effect → List Event
  | (_, .quit) | (_, .skip) => []
  | (line, .extend pending) => examination line pending
  | (line, .submit block) => examination line block ++ answerEvents style block

end Curly.Session
