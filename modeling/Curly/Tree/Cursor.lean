import Curly.Tree.Builder

/-!
# A cursor over tokens

A cursor stands at one of the tokens of a list, or past them at the end of input. It is moved
token by token, asked what comes next, or made to read one declaration, after which it stands
behind what has been read or at the token that did not fit.
-/

namespace Curly

/-- A place in a list of tokens of a text that ends at `stop`. -/
structure Cursor where
  tokens : List Token
  index : Nat
  stop : Position

namespace Cursor

/-- A cursor at the first of the tokens. -/
def atStart (tokens : List Token) (stop : Position) : Cursor := ⟨tokens, 0, stop⟩

/-- The token at the cursor, the end of input past the last one. -/
def current (c : Cursor) : Token := c.tokens[c.index]?.getD (.endOfInput c.stop)

/-- The kind of the token at the cursor. -/
def kind (c : Cursor) : Token.Kind := c.current.kind

/-- The tokens from the cursor on. -/
def rest (c : Cursor) : List Token := c.tokens.drop c.index

/-- Whether the token at the cursor is of this kind. -/
def isAt (c : Cursor) (kind : Token.Kind) : Bool := c.kind == kind

/-- Whether the cursor is at an end of input. -/
def isAtEnd (c : Cursor) : Bool := c.isAt .eof

/-- The cursor at another token, but never beyond the end of input. -/
def moveTo (c : Cursor) (index : Nat) : Cursor := { c with index := min index c.tokens.length }

/-- The cursor at the token before which `unread` remain. -/
def before (c : Cursor) (unread : List Token) : Cursor :=
  c.moveTo (c.tokens.length - unread.length)

/-- One token on, if there is one. -/
def advance (c : Cursor) : Cursor := c.moveTo (c.index + 1)

/-- Past all tokens with kinds that satisfy `p`. -/
def skip (c : Cursor) (p : Token.Kind → Bool) : Cursor :=
  c.moveTo (c.index + (c.rest.takeWhile fun t => p t.kind).length)

/-- Past spacing. -/
def skipSpacing (c : Cursor) : Cursor := c.skip (· == .spacing)

/-- Past line ends. -/
def skipNewlines (c : Cursor) : Cursor := c.skip (· == .newline)

/-- Past spacing and line ends. -/
def skipSpacingNewlines (c : Cursor) : Cursor := c.skip fun k => k == .spacing || k == .newline

/-- Past spacing, line ends and comments. -/
def skipTrivia (c : Cursor) : Cursor := c.skip Token.Kind.isTrivia

/-- The token number `skip` from the cursor on, counting only those of other kinds than the
excluded, and its index. -/
def peek? (c : Cursor) (skip : Nat) (excluded : List Token.Kind) : Option (Nat × Token) :=
  ((c.rest.zipIdx c.index).filter fun (t, _) => !excluded.contains t.kind)[skip]?.map
    fun (t, i) => (i, t)

/-- The kinds that say nothing about what comes next on a line. -/
def meaningless : List Token.Kind := [.eof, .comment, .spacing]

/-- The next token that is neither spacing nor a comment nor an end of input. -/
def peekMeaningful? (c : Cursor) : Option (Nat × Token) := c.peek? 0 meaningless

/-- Where the token at the cursor starts. -/
def start (c : Cursor) : Position := c.current.span.start

/-- The empty span before the token at the cursor. -/
def here (c : Cursor) : Span := Span.point c.start

/-- From `start` to the end of the token before the cursor. -/
def spanFrom (c : Cursor) (start : Position) : Span :=
  match c.index with
  | 0 => Span.point start
  | i + 1 => ⟨start, (c.tokens[i]?.map (·.span.stop)).getD start⟩

/-- The error that nothing begins with the token at the cursor. -/
def unexpected (c : Cursor) : GrammarError := .unexpected c.current

/-- The error that something else has to stand at the cursor. -/
def expected (c : Cursor) (what : String) : GrammarError := .expected what c.current

/-! ## Reading -/

/-- What reading gives, and the cursor after it. -/
abbrev Reading (α : Type) := Except GrammarError α × Cursor

/-- The result of a run over the tokens from the cursor on. -/
def settle {α : Type} (c : Cursor) (r : Except Refusal (α × List Token)) : Reading α :=
  match r with
  | .ok (a, unread) => (.ok a, c.before unread)
  | .error refusal => (.error refusal.error, c.before refusal.unread)

/-- Reads a token of this kind. -/
def consume (c : Cursor) (kind : Token.Kind) : Reading Token :=
  if c.isAt kind then (.ok c.current, c.advance) else (.error (c.expected kind.describe), c)

/-- Reads one item. -/
def readItem (c : Cursor) : Reading Node := c.settle (Builder.item c.stop c.rest)

/-- Reads the declaration that begins with this keyword. -/
def readDeclaration (c : Cursor) (k : Keyword) : Reading Node :=
  if c.isAt (.keyword k) then c.readItem
  else (.error (c.expected (Token.Kind.describe (.keyword k))), c)

/-- Reads an import. -/
def readUse (c : Cursor) : Reading Node := c.readDeclaration .use_

/-- Reads an enumeration. -/
def readEnum (c : Cursor) : Reading Node := c.readDeclaration .enum

/-- Reads a function. -/
def readFn (c : Cursor) : Reading Node := c.readDeclaration .fn

/-- Reads the items between braces. -/
def readBlock (c : Cursor) : Reading (List Node) :=
  if c.isAt .lbrace then c.settle (Builder.block c.stop c.advance.rest)
  else (.error (c.expected (Token.Kind.describe .lbrace)), c)

end Cursor

end Curly
