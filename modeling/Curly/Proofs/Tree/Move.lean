import Curly.Program

/-!
# Moving a tree

The same tokens, trees and errors at other places: `move f` puts everything that stands at a
position `p` at `f p` and changes nothing else. `Position.shift` is the move of a text that comes
to stand below another one.
-/

namespace Curly

variable (f : Position → Position)

/-- The place some lines further down and some bytes further on. -/
def Position.shift (lines bytes : Nat) (p : Position) : Position :=
  ⟨p.line + lines, p.column, p.offset + bytes⟩

/-- The span with both ends moved. -/
def Span.move (s : Span) : Span := ⟨f s.start, f s.stop⟩

/-- The token at another place. -/
def Token.move (t : Token) : Token := { t with span := t.span.move f }

/-- The value at another place. -/
def EnumValue.move (v : EnumValue) : EnumValue := { v with span := v.span.move f }

/-- The declaration at another place. -/
def UseDecl.move (d : UseDecl) : UseDecl := { d with span := d.span.move f }

/-- The enumeration and its values at other places. -/
def EnumDecl.move (d : EnumDecl) : EnumDecl :=
  ⟨d.name, d.values.map (EnumValue.move f), d.span.move f⟩

mutual

/-- The node and all in it at other places. -/
def Node.move : Node → Node
  | .comment text s => .comment text (s.move f)
  | .newline s => .newline (s.move f)
  | .spacing s => .spacing (s.move f)
  | .use_ d => .use_ (d.move f)
  | .enum d => .enum (d.move f)
  | .fn head body s => .fn head (moveNodes body) (s.move f)

/-- The nodes and all in them at other places. -/
def moveNodes : List Node → List Node
  | [] => []
  | n :: ns => n.move :: moveNodes ns

end

/-- The error at another place. -/
def LexicalError.move (e : LexicalError) : LexicalError := { e with span := e.span.move f }

/-- The error at another place. -/
def GrammarError.move (e : GrammarError) : GrammarError := { e with position := f e.position }

/-- The error at another place. -/
def SourceError.move : SourceError → SourceError
  | .lexical e => .lexical (e.move f)
  | .grammatical e => .grammatical (e.move f)

/-! ## What stays and what moves -/

theorem moveNodes_eq_map (ns : List Node) : moveNodes f ns = ns.map (Node.move f) := by
  induction ns with
  | nil => rfl
  | cons n ns ih => rw [moveNodes, ih, List.map_cons]

theorem EnumDecl.move_id (d : EnumDecl) : d.move id = d := by
  have hvalues : d.values.map (EnumValue.move id) = d.values := List.map_id _
  rw [EnumDecl.move, hvalues]
  rfl

@[simp] theorem Span.move_start (s : Span) : (s.move f).start = f s.start := rfl

@[simp] theorem Span.move_stop (s : Span) : (s.move f).stop = f s.stop := rfl

@[simp] theorem Token.move_kind (t : Token) : (t.move f).kind = t.kind := rfl

@[simp] theorem Token.move_text (t : Token) : (t.move f).text = t.text := rfl

@[simp] theorem Token.move_span (t : Token) : (t.move f).span = t.span.move f := rfl

@[simp] theorem Token.move_isOperator (t : Token) (op : String) :
    (t.move f).isOperator op = t.isOperator op := rfl

theorem Token.move_endOfInput (p : Position) :
    (Token.endOfInput p).move f = Token.endOfInput (f p) := rfl

theorem GrammarError.move_unexpected (t : Token) :
    (GrammarError.unexpected t).move f = .unexpected (t.move f) := by
  unfold GrammarError.unexpected
  rw [Token.move_kind]
  split <;> rfl

end Curly
