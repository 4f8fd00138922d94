import Curly.Text.Blank
import Curly.Text.Line
import Curly.Tree.Basic

/-!
# Canonical layout

The one way in which a list of declarations is written, given the text of one level of
indentation. Every declaration is followed by an empty line. Names, values and parameters stand
one to a line. A body without declarations is a pair of braces, a body with a single one follows
an arrow, and a body with several is written between braces, one level further in and without
empty lines. Trivia is passed over.
-/

namespace Curly.Layout

/-- How a level of indentation is written. -/
structure Style where
  indentWidth : Nat
  useTabs : Bool
  deriving DecidableEq, Inhabited

/-- Two blanks to a level. -/
def Style.standard : Style := ⟨2, false⟩

/-- One level of indentation: a tab, or blanks. -/
def Style.unit (style : Style) : List Char :=
  if style.useTabs then ['\t'] else List.replicate style.indentWidth ' '

/-- An entry on a line of its own. A line without text is not indented. -/
def entryLine (unit entry : List Char) : List Char :=
  (if entry.isEmpty then [] else unit ++ entry) ++ ['\n']

/-- A line end and then each entry on a line of its own; nothing for no entries. -/
def entryLines (unit : List Char) (entries : List (List Char)) : List Char :=
  if entries.isEmpty then [] else '\n' :: entries.flatMap (entryLine unit)

/-- A `use` declaration. -/
def useText (unit : List Char) (d : UseDecl) : List Char :=
  "use '".toList ++ d.specifier.toList ++ "'".toList ++
    match d.includes with
    | none => []
    | some .everything => ":\x7b*\x7d".toList
    | some (.names ns) => ":\x7b".toList ++ entryLines unit (ns.map String.toList) ++ "\x7d".toList

/-- An enumeration. -/
def enumText (unit : List Char) (d : EnumDecl) : List Char :=
  "enum ".toList ++ d.name.toList ++ " \x7b".toList ++
    entryLines unit (d.values.map (·.name.toList)) ++ "\x7d".toList

/-- A parameter: its name and its type. -/
def paramText (p : Param) : List Char := p.name.toList ++ ' ' :: p.type.toList

/-- What stands before a function's body. -/
def headText (unit : List Char) (h : FnHead) : List Char :=
  "fn ".toList ++ h.name.toList ++ "(".toList ++ entryLines unit (h.params.map paramText) ++
    ") ".toList ++
    match h.returns with
    | none => []
    | some type => type.toList ++ " ".toList

/-- A text one level further in, without its empty lines. -/
def indent (unit text : List Char) : List Char :=
  ((Text.lines text).filter fun line => !line.isEmpty).flatMap fun line => unit ++ line ++ ['\n']

/-- A body of `count` declarations that are written as `text`. -/
def bodyText (unit : List Char) (count : Nat) (text : List Char) : List Char :=
  match count with
  | 0 => "\x7b\x7d".toList
  | 1 => "-> ".toList ++ Text.trimEnd text
  | _ => "\x7b\n".toList ++ indent unit text ++ "\x7d".toList

mutual

/-- A declaration; nothing for trivia. -/
def nodeText (unit : List Char) : Node → List Char
  | .comment .. | .newline _ | .spacing _ => []
  | .use_ d => useText unit d
  | .enum d => enumText unit d
  | .fn head body _ =>
    headText unit head ++ bodyText unit (declarations body).length (nodesText unit body)

/-- A list of declarations, each followed by an empty line. -/
def nodesText (unit : List Char) : List Node → List Char
  | [] => []
  | n :: ns =>
    if n.isTrivia then nodesText unit ns
    else nodeText unit n ++ "\n\n".toList ++ nodesText unit ns

end

/-- The canonical text of a list of declarations. -/
def text (style : Style) (nodes : List Node) : String :=
  String.ofList (nodesText style.unit nodes)

end Curly.Layout
