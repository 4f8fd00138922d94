import Curly.Tree.Basic
import Curly.Tree.Error

/-!
# Building a tree from tokens

A builder holds the tree that the tokens read so far have made: the nodes finished in the
innermost open body, the functions whose bodies are open around it, and the slot of the grammar
that the next token has to fill. `Builder.read` takes one token; two slots look further ahead,
since an import goes on only if its string or its colon comes next on the line.
`Builder.run` reads tokens until a goal is reached, and gives back the tokens it has not read,
both when it succeeds and when a token does not fit.

Lists that grow are kept with the latest entry first.
-/

namespace Curly

/-- What the next token has to be, with what has been read of the declaration it belongs to.
Every declaration begins at `start`. -/
inductive Slot
  /-- A declaration, a piece of trivia, or the end of the body. -/
  | item
  /-- The string after `use`. -/
  | specifier (start : Position)
  /-- The colon that is known to follow the string. -/
  | includeColon (start : Position) (specifier : String)
  /-- The brace that opens an include list. -/
  | includeOpen (start : Position) (specifier : String)
  /-- An entry or the end of the include list that was opened at `opened`. -/
  | includes (start : Position) (specifier : String) (opened : Position) (entries : Includes)
  /-- The name after `enum`. -/
  | enumName (start : Position)
  /-- The brace that opens the values. -/
  | enumOpen (start : Position) (name : String)
  /-- A value or the end of the enumeration. -/
  | enumValues (start : Position) (name : String) (values : List EnumValue)
  /-- The name after `fn`. -/
  | fnName (start : Position)
  /-- The parenthesis that opens the parameters. -/
  | fnOpen (start : Position) (name : String)
  /-- A parameter's name or the end of the parameters. -/
  | params (start : Position) (name : String) (params : List Param)
  /-- The type of the parameter `param`. -/
  | paramType (start : Position) (name : String) (params : List Param) (param : String)
  /-- The return type, or the body of a function without one. -/
  | returns (start : Position) (name : String) (params : List Param)
  /-- The brace that opens the body. -/
  | body (start : Position) (head : FnHead)
  deriving DecidableEq, Inhabited

/-- A function whose body is open: its head, and the nodes before it in the body or program it
stands in. -/
structure OpenFn where
  start : Position
  head : FnHead
  before : List Node
  deriving Inhabited

/-- A tree under construction. The innermost open function comes first. -/
structure Builder where
  outer : List OpenFn
  done : List Node
  slot : Slot
  deriving Inhabited

/-- A token that does not fit: the error, the tree built before it, and the tokens from the one
at fault on. -/
structure Refusal where
  error : GrammarError
  built : Builder
  unread : List Token

namespace Builder

/-- Nothing read. -/
def empty : Builder := ⟨[], [], .item⟩

/-- The same tree, waiting for something else. -/
def await (b : Builder) (slot : Slot) : Builder := { b with slot := slot }

/-- The tree with one more node in the innermost body, waiting for the next. -/
def push (b : Builder) (n : Node) : Builder := ⟨b.outer, n :: b.done, .item⟩

/-- The tree inside a new function's body. -/
def openFn (b : Builder) (start : Position) (head : FnHead) : Builder :=
  ⟨⟨start, head, b.done⟩ :: b.outer, [], .item⟩

/-- What the next token but for spacing, comments and ends of input is. -/
def kindAhead? (ts : List Token) : Option Token.Kind :=
  (ts.dropWhile (·.kind.isPassable)).head?.map (·.kind)

/-- The entries of an include list with one more, if it may stand beside those before it: a
wildcard stands alone. -/
def addInclude? (entries : Includes) (t : Token) : Option Includes :=
  match entries with
  | .everything => none
  | .names ns =>
    if t.kind = .identifier then some (.names (t.text :: ns))
    else if ns.isEmpty then some .everything
    else none

/-! ## One token -/

/-- The outcome of reading `t` with `ahead` after it, which a token out of place gives back. -/
abbrev Reading := Except Refusal Builder

/-- Refuses `t`. -/
def refuse (b : Builder) (error : GrammarError) (t : Token) (ahead : List Token) : Reading :=
  .error ⟨error, b, t :: ahead⟩

/-- Refuses `t` where nothing begins with it. -/
def refuseUnexpected (b : Builder) (t : Token) (ahead : List Token) : Reading :=
  b.refuse (.unexpected t) t ahead

/-- Refuses `t` where something else has to stand. -/
def refuseFor (b : Builder) (what : String) (t : Token) (ahead : List Token) : Reading :=
  b.refuse (.expected what t) t ahead

/-- A token where an item may begin. -/
def readItem (b : Builder) (t : Token) (ahead : List Token) : Reading :=
  match t.kind, b.outer with
  | .newline, _ => .ok (b.push (.newline t.span))
  | .spacing, _ => .ok (b.push (.spacing t.span))
  | .comment, _ => .ok (b.push (.comment t.text t.span))
  | .keyword .use_, _ => .ok (b.await (.specifier t.span.start))
  | .keyword .enum, _ => .ok (b.await (.enumName t.span.start))
  | .keyword .fn, _ => .ok (b.await (.fnName t.span.start))
  | .keyword .let_, _ => b.refuse (.ofToken (.notImplemented .bindings) t) t ahead
  | .rbrace, o :: outer =>
    .ok ⟨outer, .fn o.head b.done.reverse ⟨o.start, t.span.stop⟩ :: o.before, .item⟩
  | .eof, _ :: _ => b.refuseFor (Token.Kind.describe .rbrace) t ahead
  | _, _ => b.refuseUnexpected t ahead

/-- A token after `use`. -/
def readSpecifier (b : Builder) (start : Position) (t : Token) (ahead : List Token) : Reading :=
  if t.kind = .string then
    if kindAhead? ahead = some .colon then .ok (b.await (.includeColon start t.text))
    else .ok (b.push (.use_ ⟨t.text, none, ⟨start, t.span.stop⟩⟩))
  else if t.kind = .spacing ∨ (t.kind.isPassable ∧ kindAhead? ahead = some .string) then .ok b
  else b.refuseFor "string" t ahead

/-- A token before the colon of an include list. -/
def readIncludeColon (b : Builder) (start : Position) (specifier : String) (t : Token)
    (ahead : List Token) : Reading :=
  if t.kind = .colon then .ok (b.await (.includeOpen start specifier))
  else if t.kind.isPassable ∧ kindAhead? ahead = some .colon then .ok b
  else b.refuseUnexpected t ahead

/-- A token after the colon of an include list. -/
def readIncludeOpen (b : Builder) (start : Position) (specifier : String) (t : Token)
    (ahead : List Token) : Reading :=
  match t.kind with
  | .spacing => .ok b
  | .lbrace => .ok (b.await (.includes start specifier t.span.start (.names [])))
  | _ => b.refuseFor (Token.Kind.describe .lbrace) t ahead

/-- The import whose include list ends at `stop`, which has to have an entry. -/
def closeIncludes (b : Builder) (start : Position) (specifier : String) (opened : Position)
    (entries : Includes) (stop : Position) (ahead : List Token) : Reading :=
  match entries with
  | .names [] => .error ⟨⟨.emptyIncludes, opened⟩, b, ahead⟩
  | .names ns => .ok (b.push (.use_ ⟨specifier, some (.names ns.reverse), ⟨start, stop⟩⟩))
  | .everything => .ok (b.push (.use_ ⟨specifier, some .everything, ⟨start, stop⟩⟩))

/-- A token inside an include list. -/
def readIncludes (b : Builder) (start : Position) (specifier : String) (opened : Position)
    (entries : Includes) (t : Token) (ahead : List Token) : Reading :=
  if t.kind.isTrivia ∨ t.kind = .comma then .ok b
  else if t.kind = .rbrace then b.closeIncludes start specifier opened entries t.span.stop ahead
  else if t.kind = .identifier ∨ t.isOperator "*" then
    match addInclude? entries t with
    | some entries => .ok (b.await (.includes start specifier opened entries))
    | none => b.refuse (.ofToken .mixedWildcard t) t ahead
  else if t.kind = .eof then b.refuseFor (Token.Kind.describe .rbrace) t ahead
  else b.refuseUnexpected t ahead

/-- A token after `enum`. -/
def readEnumName (b : Builder) (start : Position) (t : Token) (ahead : List Token) : Reading :=
  match t.kind with
  | .spacing => .ok b
  | .identifier => .ok (b.await (.enumOpen start t.text))
  | _ => b.refuseFor "enum name" t ahead

/-- A token after an enumeration's name. -/
def readEnumOpen (b : Builder) (start : Position) (name : String) (t : Token)
    (ahead : List Token) : Reading :=
  match t.kind with
  | .spacing => .ok b
  | .lbrace => .ok (b.await (.enumValues start name []))
  | _ => b.refuseFor (Token.Kind.describe .lbrace) t ahead

/-- A token inside an enumeration. -/
def readEnumValues (b : Builder) (start : Position) (name : String) (values : List EnumValue)
    (t : Token) (ahead : List Token) : Reading :=
  match t.kind with
  | .spacing | .newline | .comment => .ok b
  | .identifier => .ok (b.await (.enumValues start name (⟨t.text, t.span⟩ :: values)))
  | .rbrace => .ok (b.push (.enum ⟨name, values.reverse, ⟨start, t.span.stop⟩⟩))
  | .eof => b.refuseFor (Token.Kind.describe .rbrace) t ahead
  | _ => b.refuseUnexpected t ahead

/-- A token after `fn`. -/
def readFnName (b : Builder) (start : Position) (t : Token) (ahead : List Token) : Reading :=
  match t.kind with
  | .spacing => .ok b
  | .identifier => .ok (b.await (.fnOpen start t.text))
  | _ => b.refuseFor "function name" t ahead

/-- A token after a function's name. -/
def readFnOpen (b : Builder) (start : Position) (name : String) (t : Token)
    (ahead : List Token) : Reading :=
  match t.kind with
  | .spacing => .ok b
  | .lparen => .ok (b.await (.params start name []))
  | _ => b.refuseFor (Token.Kind.describe .lparen) t ahead

/-- A token inside a parameter list. -/
def readParams (b : Builder) (start : Position) (name : String) (params : List Param)
    (t : Token) (ahead : List Token) : Reading :=
  match t.kind with
  | .spacing | .newline | .comment => .ok b
  | .identifier => .ok (b.await (.paramType start name params t.text))
  | .rparen => .ok (b.await (.returns start name params))
  | _ => b.refuseFor "parameter name" t ahead

/-- A token after a parameter's name. -/
def readParamType (b : Builder) (start : Position) (name : String) (params : List Param)
    (param : String) (t : Token) (ahead : List Token) : Reading :=
  match t.kind with
  | .spacing => .ok b
  | .identifier | .builtin _ => .ok (b.await (.params start name (⟨param, t.text⟩ :: params)))
  | _ => b.refuseFor "parameter type" t ahead

/-- A token where a function's body has to begin. -/
def readBody (b : Builder) (start : Position) (head : FnHead) (t : Token)
    (ahead : List Token) : Reading :=
  match t.kind with
  | .spacing => .ok b
  | .lbrace => .ok (b.openFn start head)
  | .arrow => b.refuse (.ofToken (.notImplemented .arrowBodies) t) t ahead
  | _ => b.refuseFor (Token.Kind.describe .lbrace) t ahead

/-- A token after a parameter list. -/
def readReturns (b : Builder) (start : Position) (name : String) (params : List Param)
    (t : Token) (ahead : List Token) : Reading :=
  match t.kind with
  | .identifier | .builtin _ =>
    .ok (b.await (.body start ⟨name, params.reverse, some t.text, false⟩))
  | _ => b.readBody start ⟨name, params.reverse, none, false⟩ t ahead

/-- Reads the token `t`, with the tokens `ahead` after it. -/
def read (b : Builder) (t : Token) (ahead : List Token) : Reading :=
  match b.slot with
  | .item => b.readItem t ahead
  | .specifier start => b.readSpecifier start t ahead
  | .includeColon start specifier => b.readIncludeColon start specifier t ahead
  | .includeOpen start specifier => b.readIncludeOpen start specifier t ahead
  | .includes start specifier opened entries =>
    b.readIncludes start specifier opened entries t ahead
  | .enumName start => b.readEnumName start t ahead
  | .enumOpen start name => b.readEnumOpen start name t ahead
  | .enumValues start name values => b.readEnumValues start name values t ahead
  | .fnName start => b.readFnName start t ahead
  | .fnOpen start name => b.readFnOpen start name t ahead
  | .params start name params => b.readParams start name params t ahead
  | .paramType start name params param => b.readParamType start name params param t ahead
  | .returns start name params => b.readReturns start name params t ahead
  | .body start head => b.readBody start head t ahead

/-! ## All tokens -/

/-- What a run is to read. -/
inductive Goal
  /-- All items up to the end of input. -/
  | program
  /-- One item. -/
  | item
  deriving DecidableEq

/-- Whether no declaration is open. -/
def isIdle (b : Builder) : Bool := b.outer.isEmpty && b.slot == .item

/-- Whether a run that comes to `t` has reached its goal and leaves `t` alone. -/
def reached (goal : Goal) (b : Builder) (t : Token) : Bool :=
  b.isIdle &&
    match goal with
    | .program => t.kind == .eof
    | .item => !b.done.isEmpty

/-- Reads tokens until the goal is reached. After the last token comes the end of input at
`stop`, as often as it is asked for. -/
def run (goal : Goal) (stop : Position) (b : Builder) :
    List Token → Except Refusal (Builder × List Token)
  | [] =>
    if reached goal b (.endOfInput stop) then .ok (b, [])
    else
      match b.read (.endOfInput stop) [] with
      | .ok b => .ok (b, [])
      | .error r => .error { r with unread := [] }
  | t :: ts =>
    if reached goal b t then .ok (b, t :: ts)
    else
      match b.read t ts with
      | .ok b => run goal stop b ts
      | .error r => .error r

/-- All nodes of a list of tokens. -/
def program (stop : Position) (ts : List Token) : Except Refusal (List Node) :=
  (run .program stop empty ts).map fun (b, _) => b.done.reverse

/-- The item at the start of a list of tokens, and the tokens after it. -/
def item (stop : Position) (ts : List Token) : Except Refusal (Node × List Token) :=
  (run .item stop empty ts).map fun (b, ts) => (b.done.headD default, ts)

/-- The nodes of a body whose opening brace has been read, and the tokens after its closing
brace. -/
def block (stop : Position) (ts : List Token) : Except Refusal (List Node × List Token) :=
  (run .item stop (empty.openFn default default) ts).map fun (b, ts) =>
    match b.done with
    | .fn _ body _ :: _ => (body, ts)
    | _ => ([], ts)

end Builder

end Curly
