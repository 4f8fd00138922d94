import Curly.Service.Toml.Document
import Curly.Settings

/-!
# Settings in documents

The settings that a document gives. Settings that it does not give keep their standard values, and
names that mean nothing are passed over. A group of settings may also be given as a list, in the
order of its fields.
-/

namespace Curly.Settings

open Toml

/-- A count: an integer that is not negative. -/
def count? : Value → Option Nat
  | .integer n => if 0 ≤ n then some n.toNat else none
  | _ => none

/-- A truth value. -/
def truth? : Value → Option Bool
  | .boolean b => some b
  | _ => none

/-- A text. -/
def text? : Value → Option String
  | .string s => some s
  | _ => none

/-- Whether a value has nothing in it. -/
def isEmptyGroup : Value → Bool
  | .array [] | .table _ [] => true
  | _ => false

/-- A level: its name, or a table with the name as its only key and nothing below it. -/
def level? : Value → Option Journal.Level
  | .string s => Journal.Level.named? s
  | .table _ [(name, v)] => if isEmptyGroup v then Journal.Level.named? name else none
  | _ => none

/-- The setting `name`, which is number `index` of its group: the standard value if the group
does not give it, and nothing if it gives a value of the wrong kind. -/
def field? {α : Type} (group : Value) (index : Nat) (name : String) (read : Value → Option α)
    (standard : α) : Option α :=
  match group with
  | .table _ es => (Entries.get? es name).elim (some standard) read
  | .array items | .tables items => items[index]?.elim (some standard) read
  | .dateTime => some standard
  | _ => none

/-- The settings of the layout. -/
def style? (group : Value) : Option Layout.Style := do
  let std := Layout.Style.standard
  return ⟨← field? group 0 "indent_width" count? std.indentWidth,
    ← field? group 1 "use_tabs" truth? std.useTabs⟩

/-- The settings of a session. -/
def session? (group : Value) : Option SessionSettings := do
  let std := standardSession
  return ⟨← field? group 0 "history_size" count? std.historySize,
    ← field? group 1 "history_file" (fun v => (text? v).map some) std.historyFile,
    ← field? group 2 "prompt" text? std.prompt,
    ← field? group 3 "continuation_prompt" text? std.continuationPrompt⟩

/-- The setting of the journal. -/
def journal? (group : Value) : Option Journal.Level := field? group 0 "level" level? standard.level

/-- The settings that a document gives. -/
def ofEntries? (es : Entries) : Option Settings := do
  let group (name : String) : Value := (es.get? name).getD (.table .header [])
  return ⟨← style? (group "fmt"), ← session? (group "repl"), ← journal? (group "log")⟩

/-- The settings that a text gives, if it is a document and gives no value of the wrong kind. -/
def ofText? (text : String) : Option Settings := (Toml.parse? text).bind ofEntries?

/-- The settings in a text. -/
def parse (text : String) : Except SettingsError Settings := parseWith ofText? text

end Curly.Settings
