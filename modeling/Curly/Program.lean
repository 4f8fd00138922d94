import Curly.Diagnostic
import Curly.Token.Stream
import Curly.Tree.Builder
import Curly.Tree.Layout

/-!
# From text to tree and back

A source is cut into tokens, the tokens are built into a program, and the program is written in
canonical layout. The first error on the way is the outcome.
-/

namespace Curly

/-- Why a source is no program. -/
inductive SourceError
  | lexical (e : LexicalError)
  | grammatical (e : GrammarError)
  deriving DecidableEq

namespace SourceError

/-- The message for the reader of the source. -/
def message : SourceError → String
  | lexical e => e.message
  | grammatical e => e.message

/-- Where the error is. -/
def span : SourceError → Span
  | lexical e => e.span
  | grammatical e => e.span

/-- The message below the line that it is about. -/
def render (e : SourceError) (src : Source) : String :=
  (Diagnostic.mk e.message e.span).render src

end SourceError

namespace Source

/-- The program that these tokens of the source make. -/
def build (src : Source) (ts : List Token) : Except GrammarError Program :=
  match Builder.program src.stop ts with
  | .ok nodes => .ok ⟨src.name, nodes⟩
  | .error refusal => .error refusal.error

/-- The program that the source is, with its trivia. -/
def parse (src : Source) : Except SourceError Program :=
  match src.tokens? with
  | .error e => .error (.lexical e)
  | .ok ts =>
    match src.build ts with
    | .error e => .error (.grammatical e)
    | .ok p => .ok p

/-- Whether the source is a program, and if not why. -/
def check (src : Source) : Except SourceError Unit := src.parse.map fun _ => ()

/-- The canonical text of the source. -/
def format (style : Layout.Style) (src : Source) : Except SourceError String :=
  src.parse.map fun p => Layout.text style p.strip.children

end Source

/-- The outcomes of formatting a text, then its canonical text, and so on, `rounds` times or up
to the first error. Each text comes with whether it differs from what it was made of. -/
def formatRounds (style : Layout.Style) :
    Nat → String → List (Source × Except SourceError (String × Bool))
  | 0, _ => []
  | rounds + 1, text =>
    let src := Source.interactive text
    match src.format style with
    | .error e => [(src, .error e)]
    | .ok out => (src, .ok (out, out != text)) :: formatRounds style rounds out

end Curly
