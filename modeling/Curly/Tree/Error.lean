import Curly.Token.Basic

/-!
# Tokens that fit no declaration

Why a list of tokens is no program. The error stands at the token that does not fit: it covers
nothing of it and marks its start.
-/

namespace Curly

/-- Forms that are set aside and not read yet. -/
inductive Feature
  | bindings
  | arrowBodies
  deriving DecidableEq

/-- What is wrong with a list of tokens. -/
inductive GrammarError.Cause
  /-- Nothing begins with such a token here. -/
  | unexpectedToken (found : Token.Kind)
  /-- No declaration begins with this keyword. -/
  | unexpectedKeyword (found : Keyword)
  /-- Something else has to stand here. -/
  | expected (what : String) (found : Token.Kind)
  /-- An include list without entries. -/
  | emptyIncludes
  /-- An include list with a wildcard and another entry. -/
  | mixedWildcard
  /-- A form that is not read yet. -/
  | notImplemented (feature : Feature)
  deriving DecidableEq

/-- A place where a list of tokens is no program. -/
structure GrammarError where
  cause : GrammarError.Cause
  position : Position
  deriving DecidableEq

/-- The feature's name in messages. -/
def Feature.describe : Feature → String
  | bindings => "variable declarations"
  | arrowBodies => "arrow function bodies"

namespace GrammarError

/-- The message for the reader of the text. -/
def message (e : GrammarError) : String :=
  match e.cause with
  | .unexpectedToken found => "unexpected token: " ++ found.describe
  | .unexpectedKeyword found => "unexpected keyword: " ++ found.spelling
  | .expected what found => "expected " ++ what ++ ", got " ++ found.describe
  | .emptyIncludes => "invalid import syntax: empty include list"
  | .mixedWildcard => "invalid import syntax: '*' must be the only entry"
  | .notImplemented feature => feature.describe ++ " are not implemented yet"

/-- The empty span where the error stands. -/
def span (e : GrammarError) : Span := Span.point e.position

/-- The error of a cause at a token. -/
def ofToken (cause : Cause) (t : Token) : GrammarError := ⟨cause, t.span.start⟩

/-- Nothing begins with this token. -/
def unexpected (t : Token) : GrammarError :=
  match t.kind with
  | .keyword k => ofToken (.unexpectedKeyword k) t
  | kind => ofToken (.unexpectedToken kind) t

/-- Something else has to stand in this token's place. -/
def expected (what : String) (t : Token) : GrammarError := ofToken (.expected what t.kind) t

end GrammarError

end Curly
