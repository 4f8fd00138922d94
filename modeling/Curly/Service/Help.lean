import Curly.Version

/-!
# Help

What the command tells about itself and its tasks.
-/

namespace Curly.Command

/-- What is told about a task. -/
structure Page where
  name : String
  about : String
  operands : List String
  /-- Options with what they do. -/
  options : List (String × String)

/-- Rows of two columns. -/
def rows (rows : List (String × String)) : String :=
  let width := (rows.map fun row => row.1.length).foldl max 0
  String.join (rows.map fun (left, right) =>
    "  " ++ String.ofList (left.toList.rightpad width ' ') ++ "  " ++ right ++ "\n")

/-- The option that asks for help. -/
def helpRow : String × String := ("-h, --help", "Print help")

/-- All tasks. -/
def pages : List Page :=
  [⟨"lex", "Print the token stream of a source file", ["<FILE>"], []⟩,
   ⟨"parse", "Parse a source file and print its tree", ["<FILE>"], []⟩,
   ⟨"fmt", "Format source file", ["<FILE>"],
    [("-c, --check", "Fail instead of rewriting when the file is not formatted")]⟩,
   ⟨"eval", "Format code given on the command line", ["<CODE>"], []⟩,
   ⟨"repl", "Interactive session", [], []⟩]

/-- How a task is called. -/
def Page.usage (p : Page) : String :=
  String.join (["Usage: ", commandName, " ", p.name] ++
    (if p.options.isEmpty then [] else [" [OPTIONS]"]) ++ p.operands.map (" " ++ ·) ++ ["\n"])

/-- The help for a task. -/
def Page.text (p : Page) : String :=
  p.about ++ "\n\n" ++ p.usage ++
    (if p.operands.isEmpty then "" else "\nArguments:\n" ++ rows (p.operands.map (·, ""))) ++
    "\nOptions:\n" ++ rows (p.options ++ [helpRow])

/-- How the command is called. -/
def usage : String := "Usage: " ++ commandName ++ " [OPTIONS] <COMMAND>\n"

/-- The help for the command. -/
def help : String :=
  languageName ++ "\n\n" ++ usage ++ "\nCommands:\n" ++
    rows (pages.map (fun p => (p.name, p.about)) ++
      [("help", "Print this message or the help of the given subcommand(s)")]) ++
    "\nOptions:\n" ++
    rows [("-v, --verbose", "Enable verbose output"),
      ("    --config <FILE>", "Use this config file instead of ~/.config/cool/config.toml"),
      helpRow, ("-V, --version", "Print version")]

end Curly.Command
