import Curly.Text.Position

/-!
# Texts that are no tokens

Why a text cannot be cut into tokens, and where.
-/

namespace Curly

/-- What is wrong with a piece of text. -/
inductive LexicalError.Cause
  | unterminatedString
  | unterminatedTemplate
  | invalidNumber (literal : String)
  | unexpectedChar (c : Char)
  deriving DecidableEq

/-- A piece of text that is no token. -/
structure LexicalError where
  cause : LexicalError.Cause
  span : Span
  deriving DecidableEq

namespace LexicalError

/-- The message for the reader of the text. -/
def message (e : LexicalError) : String :=
  match e.cause with
  | .unterminatedString => "unterminated string literal"
  | .unterminatedTemplate => "unterminated template literal"
  | .invalidNumber literal => "invalid numeric syntax: " ++ literal
  | .unexpectedChar c => "unexpected character: " ++ String.singleton c

end LexicalError

end Curly
