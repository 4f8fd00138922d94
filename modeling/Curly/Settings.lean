import Curly.Journal

/-!
# Settings

How texts are laid out, how a session asks for its lines and remembers them, and which entries of
the journal are shown. What settings a text gives is for a reader of documents to say; here they
are checked.
-/

namespace Curly

/-- The settings of a session. -/
structure SessionSettings where
  historySize : Nat
  historyFile : Option String
  prompt : String
  continuationPrompt : String
  deriving DecidableEq

/-- All settings. -/
structure Settings where
  style : Layout.Style
  session : SessionSettings
  level : Journal.Level
  deriving DecidableEq

/-- Why a text gives no settings. -/
inductive SettingsError
  /-- The text is no document, or a setting has a value of the wrong kind. -/
  | malformed
  /-- Indentation without any characters. -/
  | noIndentation
  deriving DecidableEq

namespace SettingsError

/-- What is wrong, without saying where it was found. -/
def reason : SettingsError → String
  | malformed => "malformed settings"
  | noIndentation => "fmt.indent_width must be at least 1"

/-- The message for the reader of the settings. -/
def message : SettingsError → String
  | malformed => "Config parse error: " ++ malformed.reason
  | noIndentation => "Invalid config: " ++ noIndentation.reason

end SettingsError

/-- The prompt for the next line of a session in which the block `pending` is open. -/
def SessionSettings.promptFor (s : SessionSettings) (pending : String) : String :=
  if pending.isEmpty then s.prompt else s.continuationPrompt

namespace Settings

/-- The session settings that hold without a file. -/
def standardSession : SessionSettings := ⟨1000, none, "cool> ", "....> "⟩

/-- The settings that hold without a file. -/
def standard : Settings := ⟨.standard, standardSession, .info⟩

/-- Settings by which texts can be laid out: indentation needs a tab or a width. -/
def checked (s : Settings) : Except SettingsError Settings :=
  if s.style.indentWidth = 0 ∧ !s.style.useTabs then .error .noIndentation else .ok s

/-- The settings in a text, where `read` tells which settings a document gives. -/
def parseWith (read : String → Option Settings) (text : String) : Except SettingsError Settings :=
  match read text with
  | none => .error .malformed
  | some s => s.checked

end Settings

end Curly
