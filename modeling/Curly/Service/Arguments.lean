import Curly.Command.Task
import Curly.Service.Help

/-!
# The command line

The arguments name one task, before it the options that hold for every task and after it what
belongs to the task. A double dash ends the options of a task. Help may be asked for instead, of the
command or of a task.
-/

namespace Curly.Command

namespace Request

/-- A text that was asked for. -/
def told (text : String) : Request := .answered text "" 0

/-- The version. -/
def version : Request := told (commandName ++ " " ++ Curly.version ++ "\n")

/-- Arguments that ask for nothing. -/
def misused : Request := .answered "" usage 2

end Request

/-- Whether an argument can only be an option. -/
def isOption (arg : String) : Bool := arg.toList.head? == some '-' && arg != "-"

/-- Whether an argument asks for help. -/
def isHelp (arg : String) : Bool := arg == "-h" || arg == "--help"

/-! ## Tasks -/

/-- What belongs to a task that has `room` for operands: these, and how often `check` is asked for;
an inner `none` is the question for help. Only a task that `checks` knows that option. -/
def operands (checks : Bool) : Nat → List String → Option (Option (List String × Nat))
  | _, [] => some (some ([], 0))
  | room, arg :: args =>
    if arg = "--" then some (some (args, 0))
    else if isHelp arg then some none
    else if checks && (arg == "-c" || arg == "--check") then
      (operands checks room args).map (·.map fun (files, n) => (files, n + 1))
    else if isOption arg then none
    else
      match room with
      | 0 => none
      | room + 1 => (operands checks room args).map (·.map fun (files, n) => (arg :: files, n))

/-- The task of this name with these operands. A file has a name, and `check` is asked for at most
once. -/
def task? (name : String) (operands : List String) (checks : Nat) : Option Task :=
  match name, operands with
  | "lex", [file] => if file.isEmpty then none else some (.lex file)
  | "parse", [file] => if file.isEmpty then none else some (.parse file)
  | "fmt", [file] =>
    if file.isEmpty || 1 < checks then none else some (.format file (checks == 1))
  | "eval", [code] => some (.eval code)
  | "repl", [] => some .repl
  | _, _ => none

/-- Reads what comes after the name of a task. -/
def requestTask (options : Options) (page : Page) (args : List String) : Request :=
  match operands (!page.options.isEmpty) page.operands.length args with
  | none => .misused
  | some none => .told page.text
  | some (some (operands, checks)) =>
    match task? page.name operands checks with
    | some task => .run options task
    | none => .misused

/-- The page on the task of this name. -/
def page? (name : String) : Option Page := pages.find? (·.name == name)

/-- Reads what comes after a question for help. -/
def requestHelp : List String → Request
  | [] => .told help
  | [name] => (page? name).elim .misused (.told ·.text)
  | _ => .misused

/-! ## Options -/

/-- The options of a cluster of letters after a single dash, or the answer to a question that is
one of the letters. -/
def letters : Options → List Char → Except Request Options
  | options, [] => .ok options
  | options, c :: cs =>
    if c = 'V' then .error .version
    else if c = 'h' then .error (.told help)
    else if c = 'v' && !options.verbose then letters { options with verbose := true } cs
    else .error .misused

/-- Reads the arguments after some options. -/
def requestWith (options : Options) : List String → Request
  | [] => .misused
  | arg :: args =>
    if arg = "--version" then .version
    else if arg = "--help" then .told help
    else if arg = "--verbose" then
      if options.verbose then .misused else requestWith { options with verbose := true } args
    else if arg = "--config" then
      match args with
      | path :: args =>
        if isOption path || path.isEmpty || options.config.isSome then .misused
        else requestWith { options with config := some path } args
      | [] => .misused
    else if "--config=".toList.isPrefixOf arg.toList then
      let path := String.ofList (arg.toList.drop "--config=".length)
      if path.isEmpty || options.config.isSome then .misused
      else requestWith { options with config := some path } args
    else if arg = "--" then .misused
    else if isOption arg then
      match letters options (arg.toList.drop 1) with
      | .ok options => requestWith options args
      | .error request => request
    else if arg = "help" then requestHelp args
    else (page? arg).elim .misused fun page => requestTask options page args

/-- What the arguments ask for. -/
def request (args : List String) : Request := requestWith ⟨false, none⟩ args

end Curly.Command
