import Curly.Tree.Builder

/-!
# The grammar of declarations

Which lists of tokens are programs, and of which nodes, apart from any way of reading them. Each
rule names the tokens of a form in their order, and the node that they make: its names are texts
of tokens, and its span goes from the first token of the form to the last.
-/

namespace Curly.Grammar

/-- Spacing only. -/
def Spaces (ts : List Token) : Prop := ∀ t ∈ ts, t.kind = .spacing

/-- Spacing, line ends and comments only. -/
def Trivia (ts : List Token) : Prop := ∀ t ∈ ts, t.kind.isTrivia

/-- Trivia and commas only. -/
def Separators (ts : List Token) : Prop := ∀ t ∈ ts, t.kind.isTrivia ∨ t.kind = .comma

/-- The name of a type: an identifier or a built-in type. -/
def IsType (t : Token) : Prop := t.kind = .identifier ∨ ∃ b, t.kind = .builtin b

/-- `Spread Gap ts names`: the identifiers `names` with a gap before each and one after them. -/
inductive Spread (Gap : List Token → Prop) : List Token → List Token → Prop
  | last {gap : List Token} (isGap : Gap gap) : Spread Gap gap []
  | name {gap ts names : List Token} {t : Token} (isGap : Gap gap) (isName : t.kind = .identifier)
    (later : Spread Gap ts names) : Spread Gap (gap ++ t :: ts) (t :: names)

/-- What stands between the braces of an include list: a wildcard, or names, and separators
around them. -/
inductive Entries : List Token → Includes → Prop
  | everything {before after : List Token} {star : Token} (gapBefore : Separators before)
    (isStar : star.isOperator "*") (gapAfter : Separators after) :
    Entries (before ++ star :: after) .everything
  | names {ts names : List Token} (spread : Spread Separators ts names) (nonempty : names ≠ []) :
    Entries ts (.names (names.map Token.text))

/-- A `use` declaration, without an include list or with one. -/
inductive Use : List Token → UseDecl → Prop
  | plain {keyword string : Token} {gap : List Token} (isUse : keyword.kind = .keyword .use_)
    (isGap : Spaces gap) (isString : string.kind = .string) :
    Use (keyword :: (gap ++ [string])) ⟨string.text, none, ⟨keyword.span.start, string.span.stop⟩⟩
  | including {keyword string colon opening closing : Token} {gap gap₁ gap₂ ts : List Token}
    {entries : Includes} (isUse : keyword.kind = .keyword .use_) (isGap : Spaces gap)
    (isString : string.kind = .string) (isGap₁ : Spaces gap₁) (isColon : colon.kind = .colon)
    (isGap₂ : Spaces gap₂) (isOpening : opening.kind = .lbrace) (listed : Entries ts entries)
    (isClosing : closing.kind = .rbrace) :
    Use (keyword :: (gap ++ string :: (gap₁ ++ colon :: (gap₂ ++ opening :: (ts ++ [closing])))))
      ⟨string.text, some entries, ⟨keyword.span.start, closing.span.stop⟩⟩

/-- The value of an enumeration that an identifier names. -/
def valueOf (t : Token) : EnumValue := ⟨t.text, t.span⟩

/-- An enumeration. -/
inductive Enum : List Token → EnumDecl → Prop
  | intro {keyword name opening closing : Token} {gap gap₁ ts values : List Token}
    (isEnum : keyword.kind = .keyword .enum) (isGap : Spaces gap)
    (isName : name.kind = .identifier) (isGap₁ : Spaces gap₁) (isOpening : opening.kind = .lbrace)
    (spread : Spread Trivia ts values) (isClosing : closing.kind = .rbrace) :
    Enum (keyword :: (gap ++ name :: (gap₁ ++ opening :: (ts ++ [closing]))))
      ⟨name.text, values.map valueOf, ⟨keyword.span.start, closing.span.stop⟩⟩

/-- The parameters between parentheses: each a name and, on the same line, a type. -/
inductive Params : List Token → List Param → Prop
  | last {gap : List Token} (isGap : Trivia gap) : Params gap []
  | param {gap gap₁ ts : List Token} {name type : Token} {params : List Param}
    (isGap : Trivia gap) (isName : name.kind = .identifier) (isGap₁ : Spaces gap₁)
    (isType : IsType type) (later : Params ts params) :
    Params (gap ++ name :: (gap₁ ++ type :: ts)) (⟨name.text, type.text⟩ :: params)

/-- What may stand between a parameter list and a body: a return type, or only spacing. -/
inductive Returns : List Token → Option String → Prop
  | none {gap : List Token} (isGap : Spaces gap) : Returns gap none
  | some {gap gap₁ : List Token} {type : Token} (isGap : Spaces gap) (isType : IsType type)
    (isGap₁ : Spaces gap₁) : Returns (gap ++ type :: gap₁) (some type.text)

/-- A function up to its body: `Head ts start head`. -/
inductive Head : List Token → Position → FnHead → Prop
  | intro {keyword name opening closing : Token} {gap gap₁ ts rs : List Token}
    {params : List Param} {returns : Option String}
    (isFn : keyword.kind = .keyword .fn) (isGap : Spaces gap) (isName : name.kind = .identifier)
    (isGap₁ : Spaces gap₁) (isOpening : opening.kind = .lparen) (listed : Params ts params)
    (isClosing : closing.kind = .rparen) (isReturns : Returns rs returns) :
    Head (keyword :: (gap ++ name :: (gap₁ ++ opening :: (ts ++ closing :: rs))))
      keyword.span.start ⟨name.text, params, returns, false⟩

/-- `Items ts nodes`: the tokens of a program or a body, and its nodes. -/
inductive Items : List Token → List Node → Prop
  | nil : Items [] []
  | spacing {t : Token} {ts : List Token} {nodes : List Node} (isSpacing : t.kind = .spacing)
    (later : Items ts nodes) : Items (t :: ts) (.spacing t.span :: nodes)
  | newline {t : Token} {ts : List Token} {nodes : List Node} (isNewline : t.kind = .newline)
    (later : Items ts nodes) : Items (t :: ts) (.newline t.span :: nodes)
  | comment {t : Token} {ts : List Token} {nodes : List Node} (isComment : t.kind = .comment)
    (later : Items ts nodes) : Items (t :: ts) (.comment t.text t.span :: nodes)
  | use_ {us ts : List Token} {decl : UseDecl} {nodes : List Node} (isUse : Use us decl)
    (later : Items ts nodes) : Items (us ++ ts) (.use_ decl :: nodes)
  | enum {es ts : List Token} {decl : EnumDecl} {nodes : List Node} (isEnum : Enum es decl)
    (later : Items ts nodes) : Items (es ++ ts) (.enum decl :: nodes)
  | fn {hs bs ts : List Token} {start : Position} {head : FnHead} {opening closing : Token}
    {body nodes : List Node} (isHead : Head hs start head) (isOpening : opening.kind = .lbrace)
    (isBody : Items bs body) (isClosing : closing.kind = .rbrace) (later : Items ts nodes) :
    Items (hs ++ opening :: (bs ++ closing :: ts))
      (.fn head body ⟨start, closing.span.stop⟩ :: nodes)

/-- Items and then more items. -/
theorem Items.append {ts us : List Token} {nodes more : List Node} (h : Items ts nodes)
    (hmore : Items us more) : Items (ts ++ us) (nodes ++ more) := by
  induction h with
  | nil => exact hmore
  | spacing isSpacing _ ih => exact .spacing isSpacing ih
  | newline isNewline _ ih => exact .newline isNewline ih
  | comment isComment _ ih => exact .comment isComment ih
  | use_ isUse _ ih =>
    rw [List.append_assoc]
    exact .use_ isUse ih
  | enum isEnum _ ih =>
    rw [List.append_assoc]
    exact .enum isEnum ih
  | fn isHead isOpening isBody isClosing _ _ ih =>
    rw [List.append_assoc, List.cons_append, List.append_assoc, List.cons_append]
    exact .fn isHead isOpening isBody isClosing ih

end Curly.Grammar
