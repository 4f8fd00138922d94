import Curly.Command.Task
import Curly.Host.File
import Curly.Session.Editor
import Curly.Settings

/-!
# Hosts

What the program needs of the machine it runs on, and what it leaves to others: reading arguments,
documents and lines. The program is written over any host, so that it can be run on a real machine,
tried on a simulated one, and reasoned about on all that serve it well.
-/

namespace Curly

/-- The services that the program is run with. -/
structure Host (m : Type → Type) where
  /-- The value of a variable of the environment. -/
  valueOf : String → m (Option String)
  /-- The bytes of a file. -/
  read : String → m (Except FileError ByteArray)
  /-- Whether there is a file or directory of this name. -/
  contains : String → m Bool
  /-- Makes a text the content of a file. -/
  write : String → String → m (Except FileError Unit)
  /-- Writes to the output. -/
  print : String → m Unit
  /-- Writes to the reports. -/
  report : String → m Unit
  /-- What arguments ask for. -/
  readArguments : List String → Command.Request
  /-- The settings that a text gives, if it is a document of settings. -/
  readSettings : String → Option Settings
  /-- The editor of the lines of a session. -/
  editor : Session.Editor m

end Curly
