import Curly.Command.Run

/-!
# The program on a real machine
-/

namespace Curly

/-- The error of a file as the system gives it. -/
def FileError.ofSystem : IO.Error → FileError
  | .noFileOrDirectory .. => .notFound
  | .inappropriateType _ 21 _ => .isDirectory
  | .inappropriateType _ 20 _ => .notDirectory
  | .invalidArgument _ 36 _ => .nameTooLong
  | .invalidArgument _ 22 _ => .badName
  | e => .other (toString e)

/-- The outcome of work on a file. -/
def attempt {α : Type} (work : IO α) : IO (Except FileError α) := do
  try return .ok (← work)
  catch e => return .error (.ofSystem e)

/-- Asks for a line, with the prompt if there is a terminal. -/
def askSystem (prompt : String) : IO (Session.Noted Session.Asked) := do
  let stdin ← IO.getStdin
  let isTerminal ← stdin.isTty
  if isTerminal then
    let stdout ← IO.getStdout
    stdout.putStr prompt
    stdout.flush
  let asked :=
    match ← attempt stdin.getLine with
    | .ok line => (Session.askPlainly line).1
    | .error e => .failed e.message
  return ⟨asked, if isTerminal then [] else [Session.noTerminal]⟩

/-- The bytes of a file. -/
def readSystem (path : String) : IO (Except FileError ByteArray) :=
  attempt do (← IO.FS.Handle.mk path .read).readBinToEnd

/-- Makes a text the content of a file. -/
def writeSystem (path text : String) : IO (Except FileError Unit) :=
  attempt (IO.FS.writeFile path text)

/-- The machine that the program runs on, with the history of the session. -/
def systemHost : Host (StateT Session.History IO) where
  valueOf name := IO.getEnv name
  read path := readSystem path
  contains path := return (← attempt (IO.FS.Handle.mk path .read)).toBool
  write path text := writeSystem path text
  print text := do (← IO.getStdout).putStr text
  report text := do (← IO.getStderr).putStr text
  readArguments := Command.request
  readSettings := Settings.ofText?
  editor := Session.History.editor get set (fun path => readSystem path)
    (fun path text => writeSystem path text) fun prompt => askSystem prompt

end Curly

/-- Runs the program with the arguments of the command line. -/
def main (args : List String) : IO UInt32 :=
  (Curly.Command.run Curly.systemHost args).run' (.empty 0)
