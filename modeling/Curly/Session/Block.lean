import Curly.Program

/-!
# Blocks

A session reads lines and collects them into blocks. A block is complete once its braces are
balanced and no template is open; a text with another lexical error counts as complete, so that
the error is shown at once. A complete block is answered with its canonical text or with the
error it has.
-/

namespace Curly.Session

/-- The answer to a block. -/
inductive Answer
  | formatted (text : String)
  | rejected (diagnostic : String)
  deriving DecidableEq

/-- The canonical text of a block, or the error shown below its line. -/
def answer (style : Layout.Style) (block : String) : Answer :=
  let src := Source.interactive block
  match src.format style with
  | .ok text => .formatted text
  | .error e => .rejected (e.render src)

/-- Whether a block needs no more lines. -/
def isComplete (block : String) : Bool :=
  match (Source.interactive block).tokens? with
  | .ok ts => ts.countP (·.kind == .lbrace) ≤ ts.countP (·.kind == .rbrace)
  | .error e => e.cause != .unterminatedTemplate

/-- What a line does to a session in which the block `pending` is open. -/
inductive Effect
  /-- The session ends. -/
  | quit
  /-- Nothing is open and the line is blank. -/
  | skip
  /-- The block stays open with the line added. -/
  | extend (pending : String)
  /-- The block is to be answered. -/
  | submit (block : String)
  deriving DecidableEq

/-- The line that ends a session. -/
def quitLine : String := ":quit"

/-- The effect of a line. A blank line submits what is open, complete or not. -/
def effect (pending line : String) : Effect :=
  if pending.isEmpty && Text.trim line.toList == quitLine.toList then .quit
  else
    let block := pending ++ line ++ "\n"
    if Text.allBlank block.toList then .skip
    else if Text.allBlank line.toList || isComplete block then .submit block
    else .extend block

end Curly.Session
