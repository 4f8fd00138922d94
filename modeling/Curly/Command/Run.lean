import Curly.Command.Session
import Curly.Machine.Basic
import Curly.Tree.Outline

/-!
# Running a command

Every task reads its source, does its work and prints or writes what comes of it. Every failure is
reported with its causes and gives the exit code; a file is written only by a task that does not
fail. All of it works on any host, and `Machine.host` is there to try it on.
-/

namespace Curly.Command

variable {m : Type → Type} [Monad m]

/-- A text made as long as a column with blanks before it. -/
def padLeft (width : Nat) (s : String) : String := String.ofList (s.toList.leftpad width ' ')

/-- A text made as long as a column with blanks after it. -/
def padRight (width : Nat) (s : String) : String := String.ofList (s.toList.rightpad width ' ')

/-- A token in a list of tokens: where it starts, its kind and its text. -/
def tokenLine (t : Token) : String :=
  padLeft 4 (toString t.span.start.line) ++ ":" ++ padRight 3 (toString t.span.start.column) ++
    " " ++ padRight 16 t.kind.describe ++ " " ++ Text.quoted t.text ++ "\n"

/-- Lists the tokens of a file. -/
def lex (host : Host m) (level : Journal.Level) (path : String) : Work m Unit := do
  let src ← readSource host path
  ExceptT.lift (noteWork host level fun _ => Journal.ofLexing src)
  let ts ← orReject src (src.tokens?.mapError .lexical)
  host.print (String.join (ts.map tokenLine))

/-- Outlines the tree of a file. -/
def parse (host : Host m) (level : Journal.Level) (path : String) : Work m Unit := do
  let src ← readSource host path
  ExceptT.lift (noteWork host level fun _ => Journal.ofParsing src)
  let program ← orReject src src.parse
  host.print ((Outline.ofProgram program.strip).text ++ "\n")

/-- Brings a file into canonical layout, or only checks that it is in it. A file that is in it is
not written. -/
def format (host : Host m) (settings : Settings) (level : Journal.Level) (path : String)
    (check : Bool) : Work m Unit := do
  let src ← readSource host path
  ExceptT.lift (noteWork host level fun _ => Journal.ofFormatting settings.style src)
  let text ← orReject src (src.format settings.style)
  if text = src.text then return
  if check then throw (.notFormatted path)
  match ← host.write path text with
  | .ok () => return
  | .error e => throw (.unwritable path e)

/-- Prints a text in canonical layout. -/
def eval (host : Host m) (settings : Settings) (level : Journal.Level) (code : String) :
    Work m Unit := do
  let src := Source.interactive code
  ExceptT.lift (noteWork host level fun _ => Journal.ofFormatting settings.style src)
  host.print (← orReject src (src.format settings.style))

/-- Does a task. -/
def perform (host : Host m) (options : Options) (task : Task) : Work m Unit := do
  let settings ← settings host options
  let level := if options.verbose then .debug else settings.level
  match task with
  | .lex file => lex host level file
  | .parse file => parse host level file
  | .format file check => format host settings level file check
  | .eval code => eval host settings level code
  | .repl => repl host settings level

/-- Runs the program with these arguments and gives its exit code. Every failure is reported. -/
def run (host : Host m) (args : List String) : m UInt32 := do
  match host.readArguments args with
  | .answered output reports code =>
    host.print output
    host.report reports
    return code
  | .run options task =>
    match ← (perform host options task).run with
    | .ok () => return 0
    | .error e =>
      host.report e.report
      return 1

end Curly.Command
