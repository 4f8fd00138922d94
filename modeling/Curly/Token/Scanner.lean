import Curly.Text.Blank
import Curly.Token.Basic
import Curly.Token.Error

/-!
# Scanning a text

A scanner stands in a text: behind it the characters read since the current token began, before
it the rest of the text. The scanning functions read on from wherever the scanner stands;
`Scanner.next` begins a new token and picks the function by the token's first character. After
an error the scanner goes on from where it stopped, so `Scanner.results` reaches the end of every
text.
-/

namespace Curly

/-- A place in a text: where the current token begins, what has been read of it, and what is
still to be read. -/
structure Scanner where
  start : Position
  lexeme : List Char
  rest : List Char
  deriving DecidableEq

namespace Scanner

/-! ## Characters -/

/-- The decimal digits. -/
def isDigit (c : Char) : Bool := c.isDigit

/-- Letters of the basic alphabet and the underscore begin a word. -/
def isWordStart (c : Char) : Bool := c.isAlpha || c == '_'

/-- A word goes on with letters, digits and underscores. -/
def isWordChar (c : Char) : Bool := c.isAlphanum || c == '_'

/-- The characters that are operators by themselves. -/
def operatorChars : List Char := ['-', '+', '*', '/', '%', '^', '<', '>']

/-- Whether the character is an operator by itself. -/
def isOperatorChar (c : Char) : Bool := operatorChars.contains c

/-! ## Moving in the text -/

/-- A scanner at the start of a text. -/
def atStart (cs : List Char) : Scanner := ⟨Position.origin, [], cs⟩

/-- Where the scanner stands. -/
def here (s : Scanner) : Position := s.start.after s.lexeme

/-- From the start of the token to where the scanner stands. -/
def span (s : Scanner) : Span := ⟨s.start, s.here⟩

/-- The text read of the current token. -/
def lexemeText (s : Scanner) : String := String.ofList s.lexeme

/-- The character to be read next. -/
def peek? (s : Scanner) : Option Char := s.rest.head?

/-- Reads one character, if there is one. -/
def advance (s : Scanner) : Scanner :=
  match s.rest with
  | [] => s
  | c :: cs => { s with lexeme := s.lexeme ++ [c], rest := cs }

/-- Reads characters as long as they satisfy `p`. -/
def readWhile (s : Scanner) (p : Char → Bool) : Scanner :=
  { s with lexeme := s.lexeme ++ s.rest.takeWhile p, rest := s.rest.dropWhile p }

/-- Begins a new token where the scanner stands. -/
def mark (s : Scanner) : Scanner := ⟨s.here, [], s.rest⟩

/-! ## Tokens -/

/-- The token of a kind and text that the scanner has just read. -/
def token (s : Scanner) (kind : Token.Kind) (literal : String) : Token :=
  ⟨kind, some literal, s.span⟩

/-- The token of a kind whose text is all that has been read of it. -/
def make (s : Scanner) (kind : Token.Kind) : Token := s.token kind s.lexemeText

/-- The error about all that has been read of the current token. -/
def fault (s : Scanner) (cause : LexicalError.Cause) : LexicalError := ⟨cause, s.span⟩

/-- What one call of a scanning function gives: a token or an error, and where the scanner
stands after it. -/
abbrev Scan := Except LexicalError Token × Scanner

/-- A token that is complete as it stands. -/
def accept (s : Scanner) (kind : Token.Kind) : Scan := (.ok (s.make kind), s)

/-- Reads to the end of the line, which is left. The text is what has been read without the
blanks around it. -/
def comment (s : Scanner) : Scan :=
  let s := s.readWhile (· != '\n')
  (.ok (s.token .comment (String.ofList (Text.trim s.lexeme))), s)

/-- Whether `c` may stand between single quotes. -/
def isStringChar (c : Char) : Bool := c != '\'' && c != '\n' && c != '\r'

/-- Reads up to and with the closing single quote, on the same line. The text is what stands
before that quote. -/
def string (s : Scanner) : Scan :=
  let value := s.rest.takeWhile isStringChar
  let s := s.readWhile isStringChar
  if s.peek? = some '\'' then (.ok (s.advance.token .string (String.ofList value)), s.advance)
  else (.error (s.fault .unterminatedString), s)

/-- Reads up to and with the closing double quote, over any number of lines. The text is what
stands before that quote. -/
def template (s : Scanner) : Scan :=
  let value := s.rest.takeWhile (· != '"')
  let s := s.readWhile (· != '"')
  if s.peek? = some '"' then (.ok (s.advance.token .template (String.ofList value)), s.advance)
  else (.error (s.fault .unterminatedTemplate), s)

/-- Reads digits and dots. Without a dot they are an integer, with one a float; without a digit
or with several dots they are no number. -/
def number (s : Scanner) : Scan :=
  let s := s.readWhile (fun c => isDigit c || c == '.')
  let dots := s.lexeme.count '.'
  if s.lexeme.any isDigit && dots ≤ 1 then s.accept (if dots = 1 then .float else .integer)
  else (.error (s.fault (.invalidNumber s.lexemeText)), s)

/-- A word is a keyword, else a built-in type, else an identifier. -/
def wordKind (word : String) : Token.Kind :=
  match Keyword.ofWord? word with
  | some k => .keyword k
  | none =>
    match BuiltinType.ofWord? word with
    | some t => .builtin t
    | none => .identifier

/-- Reads a word. -/
def word (s : Scanner) : Scan :=
  let s := s.readWhile isWordChar
  s.accept (wordKind s.lexemeText)

/-- The kind of the tokens of one character that begin no longer one. -/
def punctuation? : Char → Option Token.Kind
  | ' ' | '\t' => some .spacing
  | '\n' => some .newline
  | '\x7b' => some .lbrace
  | '\x7d' => some .rbrace
  | '(' => some .lparen
  | ')' => some .rparen
  | '[' => some .lbracket
  | ']' => some .rbracket
  | ',' => some .comma
  | _ => none

/-- The kind of the tokens of two characters. -/
def pair? : Char → Option Char → Option Token.Kind
  | ':', some '=' => some .walrus
  | '=', some '>' => some .fatArrow
  | '=', some '=' => some .operator
  | '-', some '>' => some .arrow
  | '<', some '-' => some .backArrow
  | '<', some '=' => some .operator
  | '>', some '=' => some .operator
  | _, _ => none

/-- Reads the token that begins with `c`, which has been read already. -/
def afterFirst (s : Scanner) (c : Char) : Scan :=
  match punctuation? c, pair? c s.peek? with
  | some kind, _ => s.accept kind
  | none, some kind => s.advance.accept kind
  | none, none =>
    if c = '\r' && s.peek? = some '\n' then (.ok (s.advance.token .newline "\n"), s.advance)
    else if c = '#' then s.comment
    else if c = '.' then if s.peek?.any isDigit then s.number else s.accept .dot
    else if c = ':' then s.accept .colon
    else if c = '=' || isOperatorChar c then s.accept .operator
    else if c = '\'' then s.string
    else if c = '"' then s.template
    else if isWordStart c then s.word
    else if isDigit c then s.number
    else (.error ⟨.unexpectedChar c, Span.point s.start⟩, s)

/-- Begins a new token and reads it; nothing at the end of the text. -/
def next (s : Scanner) : Option (Except LexicalError Token) × Scanner :=
  match s.rest with
  | [] => (none, s.mark)
  | c :: _ => let (r, s) := s.mark.advance.afterFirst c; (some r, s)

end Scanner

end Curly
