import Curly.Host.File
import Curly.Service.Backspace
import Curly.Service.History
import Curly.Session.Editor

/-!
# A plain editor

An editor for an input that is no terminal. It takes lines off a text as they read after their
backspaces, and prints nothing for a prompt.
-/

namespace Curly

/-- The line at the start of a text and the text after it, if there is anything. -/
def Text.cutLine (cs : List Char) : Option (List Char × List Char) :=
  if cs.isEmpty then none
  else
    let line := cs.takeWhile (· ≠ '\n')
    match cs.dropWhile (· ≠ '\n') with
    | [] => some (line, [])
    | _ :: rest => some (dropEnd '\r' line, rest)

namespace Session

/-- What an editor notes whenever it is asked for a line. -/
def noTerminal : Journal.Entry := Journal.debug "stdin is not a tty"

/-- What asking for a line gives before this input, and the input after the line. -/
def askPlainly (input : String) : Asked × String :=
  match Text.cutLine input.toList with
  | none => (.ended, "")
  | some (line, rest) =>
    (.line (String.ofList (Text.applyBackspaces line)), String.ofList rest)

namespace History

variable {m : Type → Type} [Monad m]

/-- The history with what can be read of a file, and the fault that reading it has. -/
def ofFile (history : History) (content : Except FileError ByteArray) :
    History × Noted (Except String Unit) :=
  match content with
  | .error e => (history, ⟨.error e.message, []⟩)
  | .ok bytes =>
    let (lines, e?) := Text.byteLines bytes
    let (history, notes) := history.load lines
    match e? with
    | none => (history.settled, ⟨.ok (), notes⟩)
    | some e => (history, ⟨.error e.message, notes⟩)

/-- The editor that keeps such a history. It is told how the history is got and kept, how files are
read and written, and how a line is asked for. -/
def editor (get : m History) (keep : History → m Unit)
    (read : String → m (Except FileError ByteArray))
    (write : String → String → m (Except FileError Unit))
    (ask : String → m (Noted Asked)) : Editor m where
  start capacity := do
    keep (empty capacity)
    return ⟨.ok (), []⟩
  load path := do
    let (history, noted) := (← get).ofFile (← read path)
    keep history
    return noted
  ask := ask
  remember line := do
    keep ((← get).add line)
    return ⟨.ok (), []⟩
  save path := do
    let history ← get
    if history.needsSaving then
      return ⟨(← write path history.text).mapError FileError.message, []⟩
    else return ⟨.ok (), []⟩

end History

end Session

end Curly
