import Curly.Host.Basic
import Curly.Machine.Directory
import Curly.Service.Arguments
import Curly.Service.Editor
import Curly.Service.Settings

/-!
# A simulated machine

A machine with nothing but a directory, an environment, an input that is no terminal and what has
been written. On it the program can be tried.
-/

namespace Curly

/-- The state of a simulated machine. -/
structure Machine where
  directory : Directory
  environment : List (String × String)
  /-- What of the input has not been read. -/
  input : String
  /-- The lines that the editor remembers. -/
  history : Session.History
  output : String
  reports : String

namespace Machine

/-- The machine before a program is run. -/
def start (directory : Directory) (environment : List (String × String)) (input : String) :
    Machine :=
  ⟨directory, environment, input, .empty 0, "", ""⟩

/-- The bytes of a file. -/
def read (path : String) : StateM Machine (Except FileError ByteArray) :=
  return (← get).directory.read path

/-- Makes a text the content of a file. -/
def write (path text : String) : StateM Machine (Except FileError Unit) := do
  match (← get).directory.write path text.toUTF8 with
  | .error e => return .error e
  | .ok directory =>
    modify fun machine => { machine with directory := directory }
    return .ok ()

/-- Takes a line off the input. -/
def ask : StateM Machine (Session.Noted Session.Asked) := do
  let (asked, rest) := Session.askPlainly (← get).input
  modify fun machine => { machine with input := rest }
  return ⟨asked, [Session.noTerminal]⟩

/-- The services of a simulated machine. -/
def host : Host (StateM Machine) where
  valueOf name := return (← get).environment.lookup name
  read := read
  contains path := return (← get).directory.contains path
  write := write
  print text := modify fun machine => { machine with output := machine.output ++ text }
  report text := modify fun machine => { machine with reports := machine.reports ++ text }
  readArguments := Command.request
  readSettings := Settings.ofText?
  editor := Session.History.editor (return (← get).history)
    (fun history => modify fun machine => { machine with history := history }) read write
    fun _ => ask

end Machine

end Curly
