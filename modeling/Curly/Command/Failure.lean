import Curly.Host.File
import Curly.Settings

/-!
# Failures

Why a command ends without having done its task, and what is reported then: a headline and the
causes behind it.
-/

namespace Curly.Command

/-- Why settings cannot be taken from a file. -/
inductive LoadError
  | file (e : FileError)
  | content (e : SettingsError)
  deriving DecidableEq

namespace LoadError

/-- The message for whoever named the file. -/
def message : LoadError → String
  | file e => "IO error: " ++ e.message
  | content e => e.message

/-- The message, and what lies behind it. -/
def causes : LoadError → List String
  | file e => [(file e).message, e.message]
  | content .malformed => [SettingsError.message .malformed, SettingsError.reason .malformed]
  | content e => [e.message]

end LoadError

/-- Why a command ends without having done its task. -/
inductive Failure
  | badSettings (path : String) (e : LoadError)
  | unreadable (path : String) (e : FileError)
  | rejected (diagnostic : String)
  | notFormatted (path : String)
  | unwritable (path : String) (e : FileError)
  /-- The editor could not be made ready for a session. -/
  | notStarted (reason : String)
  /-- The editor failed within a session. -/
  | broken (reason : String)
  deriving DecidableEq

namespace Failure

/-- A headline with its causes, numbered if there are several. -/
def withCauses (headline : String) (causes : List String) : String :=
  let lines :=
    match causes with
    | [] => []
    | [cause] => ["", "Caused by:", "    " ++ cause]
    | causes =>
      "" :: "Caused by:" ::
        causes.zipIdx.map fun (cause, i) => "    " ++ toString i ++ ": " ++ cause
  String.join ((("Error: " ++ headline) :: lines).map (· ++ "\n"))

/-- What is reported. -/
def report : Failure → String
  | badSettings path e => withCauses ("Failed to load config: " ++ path) e.causes
  | unreadable path e => withCauses ("Failed to read file: " ++ path) [e.message]
  | rejected diagnostic => diagnostic ++ "\n" ++ withCauses "aborting due to previous error" []
  | notFormatted path => withCauses (path ++ " is not formatted") []
  | unwritable path e => withCauses ("Failed to write: " ++ path) [e.message]
  | notStarted reason => withCauses "Failed to start REPL" [reason]
  | broken reason => withCauses "REPL failed" [reason]

end Failure

end Curly.Command
