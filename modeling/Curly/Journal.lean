import Curly.Program
import Curly.Text.Quoted

/-!
# The journal

What the program tells about its own work, for a reader who asks for it. Each entry has a level;
a reader who asks for one level gets the graver ones as well. What is noted about a run is a
function of the source: the tokens before the first error, and the declarations that were
complete when the parser stopped, in the order in which they were completed.
-/

namespace Curly.Journal

/-- How grave an entry is, the gravest last. -/
inductive Level
  | trace | debug | info | warn | error
  deriving DecidableEq, Inhabited

namespace Level

/-- All levels. -/
def all : List Level := [trace, debug, info, warn, error]

/-- The level's name in settings. -/
def name : Level → String
  | trace => "trace"
  | debug => "debug"
  | info => "info"
  | warn => "warn"
  | error => "error"

/-- The level with this name. -/
def named? (name : String) : Option Level := all.find? (·.name == name)

/-- The level at the start of a line, five characters wide. -/
def label : Level → String
  | trace => "TRACE"
  | debug => "DEBUG"
  | info => " INFO"
  | warn => " WARN"
  | error => "ERROR"

/-- The place in the order of gravity. -/
def rank : Level → Nat
  | trace => 0
  | debug => 1
  | info => 2
  | warn => 3
  | error => 4

end Level

/-- Something noted. -/
structure Entry where
  level : Level
  message : String
  deriving DecidableEq

/-- A note for those who look for faults. -/
def debug (message : String) : Entry := ⟨.debug, message⟩

/-- A note for everybody. -/
def warn (message : String) : Entry := ⟨.warn, message⟩

namespace Entry

/-- Controls that a terminal would act on are given by their numbers. -/
def defuse (c : Char) : List Char :=
  if c = '\x1b' then "\\x1b".toList
  else if c = '\x07' then "\\x07".toList
  else if c = '\x08' then "\\x08".toList
  else if c = '\x0c' then "\\x0c".toList
  else if c = '\x7f' then "\\x7f".toList
  else if 0x80 ≤ c.toNat && c.toNat ≤ 0x9F then Text.numbered c
  else [c]

/-- The entry as a line. -/
def line (e : Entry) : String :=
  e.level.label ++ " " ++ String.ofList (e.message.toList.flatMap defuse)

/-- Whether a reader who asks for `threshold` gets the entry. -/
def isAt (threshold : Level) (e : Entry) : Bool := threshold.rank ≤ e.level.rank

end Entry

/-! ## What is noted about a source -/

mutual

/-- The declarations completed in a node, the innermost first. -/
def ofNode : Node → List Entry
  | .comment .. | .newline _ | .spacing _ => []
  | .use_ d => [debug ("parsed import '" ++ d.specifier ++ "'")]
  | .enum d =>
    [debug ("parsed enum " ++ d.name ++ " with " ++ toString d.values.length ++ " values")]
  | .fn head body _ =>
    ofNodes body ++
      [debug ("parsed fn " ++ head.name ++ " (" ++ toString head.params.length ++ " params, " ++
        toString body.length ++ " body items)")]

/-- The declarations completed in a list of nodes. -/
def ofNodes : List Node → List Entry
  | [] => []
  | n :: ns => ofNode n ++ ofNodes ns

end

/-- The declarations completed in a tree that may still be under construction. -/
def ofBuilder (b : Builder) : List Entry :=
  b.outer.reverse.flatMap (fun o => ofNodes o.before.reverse) ++ ofNodes b.done.reverse

/-- A token that has been read. -/
def ofToken (t : Token) : Entry :=
  ⟨.trace, "token " ++ t.kind.describe ++ " " ++ Text.quoted t.text ++ " at " ++
    t.span.start.describe⟩

/-- The source's name and length. -/
def nameAndLength (src : Source) : String :=
  src.name ++ " (" ++ toString src.byteLength ++ " bytes)"

/-- What is noted while a source is cut into tokens. -/
def ofLexing (src : Source) : List Entry :=
  debug ("lexing " ++ nameAndLength src) ::
    (Scanner.tokensBeforeError src.scan).map ofToken ++
    match src.tokens? with
    | .ok ts => [debug ("lexing complete: " ++ toString ts.length ++ " tokens")]
    | .error _ => []

/-- What is noted while tokens are built into a program. -/
def ofBuilding (src : Source) (ts : List Token) : List Entry :=
  debug ("parsing " ++ src.name ++ " (" ++ toString ts.length ++ " tokens)") ::
    match Builder.program src.stop ts with
    | .error refusal => ofBuilder refusal.built
    | .ok nodes =>
      ofNodes nodes ++
        [debug ("parsing complete: " ++ toString nodes.length ++ " top-level nodes"),
          debug ("Parsing successful, got " ++ toString (declarations nodes).length ++
            " top-level declarations")]

/-- What is noted while a source is parsed. -/
def ofParsing (src : Source) : List Entry :=
  debug ("Parsing " ++ nameAndLength src) :: ofLexing src ++
    match src.tokens? with
    | .ok ts => ofBuilding src ts
    | .error _ => []

/-- What is noted while a source is formatted. -/
def ofFormatting (style : Layout.Style) (src : Source) : List Entry :=
  ofParsing src ++
    match src.format style with
    | .ok text =>
      [debug ("Formatted " ++ src.name ++ " into " ++ toString text.utf8ByteSize ++ " bytes")]
    | .error _ => []

end Curly.Journal
