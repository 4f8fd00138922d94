import Curly.Text.Position

/-!
# Declaration trees

A program is a list of nodes: declarations, and between them the spacing, line ends and comments
of the text, which are called trivia. Function bodies hold nodes again, to any depth.
`stripTrivia` takes the trivia out at every depth.
-/

namespace Curly

/-- A function's parameter. -/
structure Param where
  name : String
  type : String
  deriving DecidableEq, Inhabited

/-- One of the values of an enumeration. -/
structure EnumValue where
  name : String
  span : Span
  deriving DecidableEq, Inhabited

/-- What a `use` declaration takes from what it uses. -/
inductive Includes
  /-- All there is. -/
  | everything
  /-- The names listed, in their order and with repetitions. -/
  | names (ns : List String)
  deriving DecidableEq, Inhabited

/-- A `use` declaration: what is used, and the list after the colon if there is one. -/
structure UseDecl where
  specifier : String
  includes : Option Includes
  span : Span
  deriving DecidableEq, Inhabited

/-- An enumeration. -/
structure EnumDecl where
  name : String
  values : List EnumValue
  span : Span
  deriving DecidableEq, Inhabited

/-- What stands before a function's body. `arrow` tells a body that is one expression. -/
structure FnHead where
  name : String
  params : List Param
  returns : Option String
  arrow : Bool
  deriving DecidableEq, Inhabited

/-- A declaration or a piece of trivia. -/
inductive Node
  | comment (text : String) (span : Span)
  | newline (span : Span)
  | spacing (span : Span)
  | use_ (decl : UseDecl)
  | enum (decl : EnumDecl)
  | fn (head : FnHead) (body : List Node) (span : Span)
  deriving Inhabited

namespace Node

/-- Whether the node is a comment, a line end or spacing. -/
def isTrivia : Node → Bool
  | comment .. | newline _ | spacing _ => true
  | use_ _ | enum _ | fn .. => false

/-- Where the node stands. -/
def span : Node → Span
  | comment _ s | newline s | spacing s | fn _ _ s => s
  | use_ d => d.span
  | enum d => d.span

end Node

/-! ## Equality -/

mutual

/-- Whether two nodes are equal. -/
def Node.beq : Node → Node → Bool
  | .comment text span, .comment text' span' => text == text' && span == span'
  | .newline span, .newline span' | .spacing span, .spacing span' => span == span'
  | .use_ d, .use_ d' => d == d'
  | .enum d, .enum d' => d == d'
  | .fn head body span, .fn head' body' span' =>
    head == head' && beqNodes body body' && span == span'
  | _, _ => false

/-- Whether two lists of nodes are equal. -/
def beqNodes : List Node → List Node → Bool
  | [], [] => true
  | n :: ns, n' :: ns' => n.beq n' && beqNodes ns ns'
  | _, _ => false

end

mutual

theorem Node.beq_iff_eq : ∀ n n' : Node, n.beq n' ↔ n = n'
  | .fn head body span, n' => by
    cases n'
    case fn head' body' span' => simp [Node.beq, beqNodes_iff_eq body body', and_assoc]
    all_goals simp [Node.beq]
  | .comment .., n' | .newline _, n' | .spacing _, n' | .use_ _, n' | .enum _, n' => by
    cases n' <;> simp [Node.beq]

theorem beqNodes_iff_eq : ∀ ns ns' : List Node, beqNodes ns ns' ↔ ns = ns'
  | [], ns' => by cases ns' <;> simp [beqNodes]
  | n :: ns, [] => by simp [beqNodes]
  | n :: ns, n' :: ns' => by simp [beqNodes, n.beq_iff_eq n', beqNodes_iff_eq ns ns']

end

instance : DecidableEq Node := fun n n' => decidable_of_iff _ (n.beq_iff_eq n')

/-! ## Trivia -/

mutual

/-- The node with the trivia taken out of its body. -/
def Node.strip : Node → Node
  | .fn head body span => .fn head (stripTrivia body) span
  | .comment text span => .comment text span
  | .newline span => .newline span
  | .spacing span => .spacing span
  | .use_ d => .use_ d
  | .enum d => .enum d

/-- The declarations of a list of nodes, with the trivia taken out of their bodies. -/
def stripTrivia : List Node → List Node
  | [] => []
  | n :: ns => if n.isTrivia then stripTrivia ns else n.strip :: stripTrivia ns

end

/-- The declarations of a list of nodes as they stand. -/
def declarations (nodes : List Node) : List Node := nodes.filter fun n => !n.isTrivia

/-- A parsed source: its name and its nodes. -/
structure Program where
  source : String
  children : List Node
  deriving DecidableEq, Inhabited

/-- The program without trivia at any depth. -/
def Program.strip (p : Program) : Program := { p with children := stripTrivia p.children }

end Curly
