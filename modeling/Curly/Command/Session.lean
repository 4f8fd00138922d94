import Curly.Command.Work
import Curly.Session.Run

/-!
# Sessions on a host

A session asks the editor for one line after the other, with a prompt that tells whether a block is
open, and shows what the line comes to. It goes on until a line or the end of the lines ends it, or
the editor fails.
-/

namespace Curly.Command

open Session (Noted Event)

variable {m : Type → Type} [Monad m]

/-- The outcome of a call of the editor, whose notes are shown. -/
def heed (host : Host m) (level : Journal.Level) {α : Type} (call : m (Noted α)) : m α := do
  let noted ← call
  note host level noted.notes
  return noted.outcome

/-- A call of the editor whose failure ends the command. -/
def heedOrFail (host : Host m) (level : Journal.Level) (failure : String → Failure)
    (call : m (Noted (Except String Unit))) : Work m Unit := do
  match ← ExceptT.lift (heed host level call) with
  | .ok () => return
  | .error reason => throw (failure reason)

/-- A call of the editor about its file, whose failure is only noted. -/
def heedOrWarn (host : Host m) (level : Journal.Level) (action path : String)
    (call : m (Noted (Except String Unit))) : m Unit := do
  match ← heed host level call with
  | .ok () => return
  | .error reason =>
    note host level [Journal.warn ("could not " ++ action ++ " history " ++ path ++ ": " ++ reason)]

/-- Remembers the lines of earlier sessions, if they are in a file and the file is there. -/
def loadHistory (host : Host m) (settings : Settings) (level : Journal.Level) : m Unit := do
  match settings.session.historyFile with
  | none => return
  | some path =>
    if ← host.contains path then heedOrWarn host level "load" path (host.editor.load path)

/-- Writes the lines that are remembered to their file, if they have one. -/
def saveHistory (host : Host m) (settings : Settings) (level : Journal.Level) : m Unit := do
  match settings.session.historyFile with
  | none => return
  | some path => heedOrWarn host level "save" path (host.editor.save path)

/-- Shows what a session shows. -/
def show_ (host : Host m) (level : Journal.Level) : Event → m Unit
  | .print text => host.print text
  | .report message => host.report (message ++ "\n")
  | .note e => note host level [e]

/-- Remembers a line, if it has something in it. -/
def rememberLine (host : Host m) (level : Journal.Level) (line : String) : Work m Unit :=
  if Text.allBlank line.toList then return
  else heedOrFail host level .broken (host.editor.remember line)

/-- Does what a line asks for in a session in which the block `pending` is open: the block that is
open afterwards, or nothing if the line ends the session. -/
def takeLine (host : Host m) (settings : Settings) (level : Journal.Level) (pending line : String) :
    Work m (String ⊕ Unit) := do
  let effect := Session.effect pending line
  if effect = .quit then return .inr ()
  else
    rememberLine host level line
    ExceptT.lift ((Session.lineEvents settings.style (line, effect)).forM (show_ host level))
    return .inl effect.pending

/-- One turn of a session in which the block `pending` is open. -/
def turn (host : Host m) (settings : Settings) (level : Journal.Level) (pending : String) :
    Work m (String ⊕ Unit) := do
  let ask := host.editor.ask (settings.session.promptFor pending)
  match ← ExceptT.lift (heed host level ask) with
  | .line line => takeLine host settings level pending line
  | .ended => return .inr ()
  | .interrupted =>
    host.print Session.interruption
    return .inl ""
  | .failed reason => throw (.broken reason)

/-- Answers the blocks of the lines, turn by turn until the session ends. -/
def repl (host : Host m) (settings : Settings) (level : Journal.Level) : Work m Unit := do
  heedOrFail host level .notStarted (host.editor.start settings.session.historySize)
  ExceptT.lift (loadHistory host settings level)
  host.print Session.banner
  repeatM (turn host settings level) ""
  ExceptT.lift (saveHistory host settings level)

end Curly.Command
