/-!
# Tasks

What the program can be asked to do, and with which options.
-/

namespace Curly.Command

/-- What is to be done. -/
inductive Task
  /-- List the tokens of a file. -/
  | lex (file : String)
  /-- Outline the tree of a file. -/
  | parse (file : String)
  /-- Bring a file into canonical layout, or only check that it is in it. -/
  | format (file : String) (check : Bool)
  /-- Print a text in canonical layout. -/
  | eval (code : String)
  /-- Answer the blocks of the input. -/
  | repl
  deriving DecidableEq

/-- The options that hold for every task. -/
structure Options where
  verbose : Bool
  config : Option String
  deriving DecidableEq

/-- What the arguments ask for. -/
inductive Request
  | run (options : Options) (task : Task)
  /-- The reader of the arguments has answered them: with a text for the output, one for the
  reports and an exit code. -/
  | answered (output reports : String) (code : UInt32)
  deriving DecidableEq

end Curly.Command
