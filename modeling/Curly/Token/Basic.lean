import Curly.Text.Position
import Curly.Token.Word

/-!
# Tokens

The pieces into which a text is cut. Blanks, line ends and comments are tokens like any other:
the grammar decides where they matter.
-/

namespace Curly

/-- What a token is, apart from its text. -/
inductive Token.Kind
  | spacing | newline | comment
  | identifier | keyword (k : Keyword) | builtin (t : BuiltinType)
  | integer | float | string | template
  | colon | comma | dot | lparen | rparen | lbrace | rbrace | lbracket | rbracket
  | arrow | backArrow | fatArrow | walrus
  | operator
  | eof
  deriving DecidableEq, Inhabited

/-- A piece of a text: its kind, its text and where it stands. Only the end of input has no
text. -/
structure Token where
  kind : Token.Kind
  literal : Option String
  span : Span
  deriving DecidableEq, Inhabited

namespace Token.Kind

/-- The name of the kind in messages. -/
def describe : Kind → String
  | spacing => "spacing"
  | newline => "newline"
  | comment => "comment"
  | identifier => "identifier"
  | keyword k => "keyword '" ++ k.spelling ++ "'"
  | builtin t => "type '" ++ t.spelling ++ "'"
  | integer => "integer"
  | float => "float"
  | string => "string"
  | template => "template literal"
  | colon => "':'"
  | comma => "','"
  | dot => "'.'"
  | lparen => "'('"
  | rparen => "')'"
  | lbrace => "'\x7b'"
  | rbrace => "'\x7d'"
  | lbracket => "'['"
  | rbracket => "']'"
  | arrow => "'->'"
  | backArrow => "'<-'"
  | fatArrow => "'=>'"
  | walrus => "':='"
  | operator => "operator"
  | eof => "end of input"

/-- All kinds. -/
def all : List Kind :=
  [spacing, newline, comment, identifier] ++ Keyword.all.map keyword ++
    BuiltinType.all.map builtin ++
    [integer, float, string, template, colon, comma, dot, lparen, rparen, lbrace, rbrace,
      lbracket, rbracket, arrow, backArrow, fatArrow, walrus, operator, eof]

/-- The kind with this name. -/
def named? (name : String) : Option Kind := all.find? (·.describe == name)

/-- Spacing, line ends and comments say nothing to the grammar. -/
def isTrivia : Kind → Bool
  | spacing | newline | comment => true
  | _ => false

/-- What may stand between an import's parts on its line: spacing and comments, and an end of
input that is not the last token. -/
def isPassable : Kind → Bool
  | spacing | comment | eof => true
  | _ => false

end Token.Kind

namespace Token

/-- The end of input at `p`. -/
def endOfInput (p : Position) : Token := ⟨.eof, none, Span.point p⟩

/-- The token's text, empty for the end of input. -/
def text (t : Token) : String := t.literal.getD ""

/-- Whether the token is the operator spelled `op`. -/
def isOperator (t : Token) (op : String) : Bool := t.kind == .operator && t.text == op

end Token

end Curly
