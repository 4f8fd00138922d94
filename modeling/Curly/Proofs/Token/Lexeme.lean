import Curly.Token.Stream
import Mathlib.Data.List.Basic

/-!
# Lexemes

The lexical grammar, apart from any way of reading it. A lexeme is the whole text of a token;
`Lexeme` says which texts are lexemes and of which kind. Runs of digits and dots with several dots
are lexemes as well, but of no kind: they stand for an error. A text may start with several
lexemes, one inside the other; `Longest` is the one that a text is cut at. `Reads` says what is
found at the start of a text, be it a token or an error, and `exists_reads` that something is.
-/

namespace Curly

namespace Token

/-- What a token of this kind says of its lexeme. Strings and templates go without their quotes
and comments without the blanks around them, and every line end is a line feed. -/
def Kind.literal (kind : Kind) (lexeme : List Char) : String :=
  match kind with
  | .string | .template => String.ofList lexeme.tail.dropLast
  | .comment => String.ofList (Text.trim lexeme)
  | .newline => "\n"
  | _ => String.ofList lexeme

/-- The token of this kind whose lexeme stands at `p`. -/
def ofLexeme (p : Position) (kind : Kind) (lexeme : List Char) : Token :=
  ⟨kind, some (kind.literal lexeme), ⟨p, p.after lexeme⟩⟩

@[simp] theorem ofLexeme_kind (p : Position) (kind : Kind) (lexeme : List Char) :
    (ofLexeme p kind lexeme).kind = kind := rfl

@[simp] theorem ofLexeme_span (p : Position) (kind : Kind) (lexeme : List Char) :
    (ofLexeme p kind lexeme).span = ⟨p, p.after lexeme⟩ := rfl

@[simp] theorem ofLexeme_text (p : Position) (kind : Kind) (lexeme : List Char) :
    (ofLexeme p kind lexeme).text = kind.literal lexeme := rfl

end Token

/-! ## The grammar -/

/-- The lexemes that are always spelled the same: blanks, line ends, punctuation and operators. -/
def fixedLexemes : List (List Char × Token.Kind) :=
  [([' '], .spacing), (['\t'], .spacing), (['\n'], .newline), (['\r', '\n'], .newline),
    (['\x7b'], .lbrace), (['\x7d'], .rbrace), (['('], .lparen), ([')'], .rparen),
    (['['], .lbracket), ([']'], .rbracket), ([','], .comma), (['.'], .dot), ([':'], .colon),
    ([':', '='], .walrus), (['=', '>'], .fatArrow), (['-', '>'], .arrow), (['<', '-'], .backArrow),
    (['='], .operator), (['=', '='], .operator), (['+'], .operator), (['-'], .operator),
    (['*'], .operator), (['/'], .operator), (['%'], .operator), (['^'], .operator),
    (['<'], .operator), (['>'], .operator), (['<', '='], .operator), (['>', '='], .operator)]

/-- A letter or an underscore, and then letters, digits and underscores. -/
inductive IsWord : List Char → Prop
  | intro {c : Char} {cs : List Char} (first : Scanner.isWordStart c)
    (more : ∀ d ∈ cs, Scanner.isWordChar d) : IsWord (c :: cs)

/-- A word is a keyword if one is spelled so, else a built-in type, else an identifier. -/
inductive WordKind (word : List Char) : Token.Kind → Prop
  | keyword (k : Keyword) (spelled : k.spelling.toList = word) : WordKind word (.keyword k)
  | builtin (t : BuiltinType) (spelled : t.spelling.toList = word)
    (noKeyword : ∀ k : Keyword, k.spelling.toList ≠ word) : WordKind word (.builtin t)
  | identifier (noKeyword : ∀ k : Keyword, k.spelling.toList ≠ word)
    (noBuiltin : ∀ t : BuiltinType, t.spelling.toList ≠ word) : WordKind word .identifier

/-- Digits and dots, of which the first or, after a leading dot, the second is a digit. -/
inductive NumberRun : List Char → Prop
  | digit {d : Char} {cs : List Char} (first : Scanner.isDigit d)
    (more : ∀ c ∈ cs, Scanner.isDigit c ∨ c = '.') : NumberRun (d :: cs)
  | dot {d : Char} {cs : List Char} (first : Scanner.isDigit d)
    (more : ∀ c ∈ cs, Scanner.isDigit c ∨ c = '.') : NumberRun ('.' :: d :: cs)

/-- `Lexeme cs r`: the text `cs` is a lexeme, and stands for `r`. -/
inductive Lexeme : List Char → Except LexicalError.Cause Token.Kind → Prop
  /-- A blank, a line end, a piece of punctuation or an operator. -/
  | fixed {cs : List Char} {kind : Token.Kind} (listed : (cs, kind) ∈ fixedLexemes) :
    Lexeme cs (.ok kind)
  /-- A hash and anything after it on its line. -/
  | comment {body : List Char} (oneLine : '\n' ∉ body) : Lexeme ('#' :: body) (.ok .comment)
  /-- Single quotes around a text on one line. -/
  | string {body : List Char} (inside : ∀ c ∈ body, c ≠ '\'' ∧ c ≠ '\r' ∧ c ≠ '\n') :
    Lexeme ('\'' :: (body ++ ['\''])) (.ok .string)
  /-- Double quotes around a text of any number of lines. -/
  | template {body : List Char} (inside : '"' ∉ body) :
    Lexeme ('"' :: (body ++ ['"'])) (.ok .template)
  /-- A keyword, the name of a built-in type, or another name. -/
  | word {cs : List Char} {kind : Token.Kind} (isWord : IsWord cs) (isKind : WordKind cs kind) :
    Lexeme cs (.ok kind)
  /-- A number without a dot. -/
  | integer {run : List Char} (isRun : NumberRun run) (dots : run.count '.' = 0) :
    Lexeme run (.ok .integer)
  /-- A number with a dot. -/
  | float {run : List Char} (isRun : NumberRun run) (dots : run.count '.' = 1) :
    Lexeme run (.ok .float)
  /-- What would be a number but for its dots. -/
  | malformed {run : List Char} (isRun : NumberRun run) (dots : 2 ≤ run.count '.') :
    Lexeme run (.error (.invalidNumber (String.ofList run)))

/-- `Longest text lexeme r`: of the lexemes that `text` starts with, `lexeme` is the longest. -/
structure Longest (text lexeme : List Char) (r : Except LexicalError.Cause Token.Kind) : Prop where
  isLexeme : Lexeme lexeme r
  isStart : lexeme <+: text
  longest : ∀ l r', Lexeme l r' → l <+: text → l.length ≤ lexeme.length

/-- No lexeme is a start of `text`. -/
def NoLexeme (text : List Char) : Prop := ∀ l r, Lexeme l r → ¬ l <+: text

/-- `Reads p text r lexeme`: the start of `text`, which stands at `p`, gives `r` and takes up
`lexeme`. -/
inductive Reads (p : Position) (text : List Char) :
    Except LexicalError Token → List Char → Prop
  /-- The longest lexeme is a token of its kind. -/
  | token {lexeme : List Char} {kind : Token.Kind} (isLongest : Longest text lexeme (.ok kind)) :
    Reads p text (.ok (.ofLexeme p kind lexeme)) lexeme
  /-- The longest lexeme is a run of digits with too many dots. -/
  | malformed {run : List Char}
    (isLongest : Longest text run (.error (.invalidNumber (String.ofList run)))) :
    Reads p text (.error ⟨.invalidNumber (String.ofList run), ⟨p, p.after run⟩⟩) run
  /-- A single quote is not closed on its line, which is read up to its end. -/
  | openString {body tail : List Char} (noLexeme : NoLexeme text)
    (split : text = '\'' :: (body ++ tail))
    (inside : ∀ c ∈ body, c ≠ '\'' ∧ c ≠ '\r' ∧ c ≠ '\n')
    (stop : ∀ c ∈ tail.head?, c = '\r' ∨ c = '\n') :
    Reads p text (.error ⟨.unterminatedString, ⟨p, p.after ('\'' :: body)⟩⟩) ('\'' :: body)
  /-- A double quote is not closed, and all of the text is read. -/
  | openTemplate {body : List Char} (noLexeme : NoLexeme text) (split : text = '"' :: body)
    (inside : '"' ∉ body) :
    Reads p text (.error ⟨.unterminatedTemplate, ⟨p, p.after text⟩⟩) text
  /-- Any other character that begins no lexeme. -/
  | unexpected {c : Char} {cs : List Char} (noLexeme : NoLexeme text) (split : text = c :: cs)
    (notQuote : c ≠ '\'') (notDoubleQuote : c ≠ '"') :
    Reads p text (.error ⟨.unexpectedChar c, Span.point p⟩) [c]

/-! ## First facts -/

theorem Lexeme.ne_nil {cs : List Char} {r : Except LexicalError.Cause Token.Kind}
    (h : Lexeme cs r) : cs ≠ [] := by
  cases h with
  | fixed listed =>
    have all : ∀ x ∈ fixedLexemes, x.1 ≠ [] := by decide
    exact all _ listed
  | word isWord => cases isWord; exact List.cons_ne_nil _ _
  | integer isRun | float isRun | malformed isRun => cases isRun <;> exact List.cons_ne_nil _ _
  | comment | string | template => exact List.cons_ne_nil _ _

/-- A run of digits and dots is a lexeme, whatever the number of its dots. -/
theorem NumberRun.lexeme {run : List Char} (h : NumberRun run) : ∃ r, Lexeme run r := by
  by_cases h0 : run.count '.' = 0
  · exact ⟨_, .integer h h0⟩
  · by_cases h1 : run.count '.' = 1
    · exact ⟨_, .float h h1⟩
    · exact ⟨_, .malformed h (by omega)⟩

/-- A run goes on with a digit or a dot. -/
theorem NumberRun.concat {run : List Char} {c : Char} (h : NumberRun run)
    (hc : Scanner.isDigit c ∨ c = '.') : NumberRun (run ++ [c]) := by
  cases h with
  | digit first more =>
    exact .digit first (List.forall_mem_append.2 ⟨more, List.forall_mem_singleton.2 hc⟩)
  | dot first more =>
    exact .dot first (List.forall_mem_append.2 ⟨more, List.forall_mem_singleton.2 hc⟩)

/-- A word goes on with a character of a word. -/
theorem IsWord.concat {cs : List Char} {c : Char} (h : IsWord cs) (hc : Scanner.isWordChar c) :
    IsWord (cs ++ [c]) := by
  cases h with
  | intro first more =>
    exact .intro first (List.forall_mem_append.2 ⟨more, List.forall_mem_singleton.2 hc⟩)

/-- **A text that starts with a lexeme starts with a longest one.** -/
theorem exists_longest {text l : List Char} {r : Except LexicalError.Cause Token.Kind}
    (hl : Lexeme l r) (hstart : l <+: text) : ∃ lexeme r', Longest text lexeme r' := by
  by_cases hmax : ∀ l' r', Lexeme l' r' → l' <+: text → l'.length ≤ l.length
  · exact ⟨l, r, hl, hstart, hmax⟩
  · push Not at hmax
    obtain ⟨l', r', hl', hstart', hlt⟩ := hmax
    have := hstart'.length_le
    exact exists_longest hl' hstart'
  termination_by text.length - l.length

theorem Reads.isStart {p : Position} {text lexeme : List Char} {r : Except LexicalError Token}
    (h : Reads p text r lexeme) : lexeme <+: text := by
  cases h with
  | token isLongest | malformed isLongest => exact isLongest.isStart
  | @openString body tail _ split => exact ⟨tail, by rw [split, List.cons_append]⟩
  | openTemplate => exact List.prefix_rfl
  | @unexpected c cs _ split => exact ⟨cs, by rw [split, List.singleton_append]⟩

theorem Reads.ne_nil {p : Position} {text lexeme : List Char} {r : Except LexicalError Token}
    (h : Reads p text r lexeme) : lexeme ≠ [] := by
  cases h with
  | token isLongest | malformed isLongest => exact isLongest.isLexeme.ne_nil
  | openString => exact List.cons_ne_nil _ _
  | openTemplate _ split => rw [split]; exact List.cons_ne_nil _ _
  | unexpected => exact List.cons_ne_nil _ _

/-- A text that starts with an open single quote up to the end of its line. -/
theorem exists_openString {cs : List Char} (h : NoLexeme ('\'' :: cs)) :
    ∃ body tail, cs = body ++ tail ∧ (∀ c ∈ body, c ≠ '\'' ∧ c ≠ '\r' ∧ c ≠ '\n') ∧
      ∀ c ∈ tail.head?, c = '\r' ∨ c = '\n' := by
  have hbody : ∀ c ∈ cs.takeWhile Scanner.isStringChar, c ≠ '\'' ∧ c ≠ '\r' ∧ c ≠ '\n' := by
    intro c hc
    have := List.all_eq_true.1 List.all_takeWhile c hc
    simp only [Scanner.isStringChar, Bool.and_eq_true, bne_iff_ne] at this
    tauto
  refine ⟨_, _, List.takeWhile_append_dropWhile.symm, hbody, fun c hc => ?_⟩
  have hnot := List.head?_dropWhile_not Scanner.isStringChar cs
  rw [Option.mem_def.1 hc] at hnot
  have hquote : c ≠ '\'' := by
    rintro rfl
    obtain ⟨tail, htail⟩ := List.head?_eq_some_iff.1 hc
    refine h _ _ (.string hbody) ⟨tail, ?_⟩
    rw [List.cons_append, List.append_assoc, List.singleton_append, ← htail,
      List.takeWhile_append_dropWhile]
  by_cases hr : c = '\r'
  · exact .inl hr
  · exact .inr (by simpa [Scanner.isStringChar, hr, hquote] using hnot)

theorem not_mem_of_openTemplate {body : List Char} (h : NoLexeme ('"' :: body)) : '"' ∉ body := by
  intro hmem
  obtain ⟨before, tail, rfl, hbefore⟩ := List.eq_append_cons_of_mem hmem
  exact h _ _ (.template hbefore) ⟨tail, by simp⟩

/-- **Something is found at the start of every text that is not empty.** -/
theorem exists_reads (p : Position) {text : List Char} (h : text ≠ []) :
    ∃ r lexeme, Reads p text r lexeme := by
  by_cases hlex : ∃ l r, Lexeme l r ∧ l <+: text
  · obtain ⟨l, r, hl, hstart⟩ := hlex
    obtain ⟨lexeme, r', hlongest⟩ := exists_longest hl hstart
    cases r' with
    | ok kind => exact ⟨_, _, .token hlongest⟩
    | error cause =>
      obtain rfl : cause = .invalidNumber (String.ofList lexeme) := by
        cases hlongest.isLexeme
        rfl
      exact ⟨_, _, .malformed hlongest⟩
  · have hno : NoLexeme text := fun l r hl hstart => hlex ⟨l, r, hl, hstart⟩
    obtain ⟨c, cs, rfl⟩ := List.exists_cons_of_ne_nil h
    by_cases hq : c = '\''
    · subst hq
      obtain ⟨body, tail, rfl, inside, stop⟩ := exists_openString hno
      exact ⟨_, _, .openString hno rfl inside stop⟩
    · by_cases hd : c = '"'
      · subst hd
        exact ⟨_, _, .openTemplate hno rfl (not_mem_of_openTemplate hno)⟩
      · exact ⟨_, _, .unexpected hno rfl hq hd⟩

/-! ## Words and their kinds -/

theorem Keyword.ofWord?_spelling (k : Keyword) : Keyword.ofWord? k.spelling = some k := by
  cases k <;> decide

theorem BuiltinType.ofWord?_spelling (t : BuiltinType) :
    BuiltinType.ofWord? t.spelling = some t := by
  cases t <;> decide

theorem Keyword.spelling_of_ofWord? {w : String} {k : Keyword} (h : Keyword.ofWord? w = some k) :
    k.spelling = w := by
  simpa using List.find?_some h

theorem BuiltinType.spelling_of_ofWord? {w : String} {t : BuiltinType}
    (h : BuiltinType.ofWord? w = some t) : t.spelling = w := by
  simpa using List.find?_some h

theorem Scanner.wordKind_of_wordKind {w : List Char} {kind : Token.Kind} (h : WordKind w kind) :
    Scanner.wordKind (String.ofList w) = kind := by
  have noKeyword : (∀ k : Keyword, k.spelling.toList ≠ w) →
      Keyword.ofWord? (String.ofList w) = none := by
    intro hk
    cases he : Keyword.ofWord? (String.ofList w) with
    | none => rfl
    | some k => exact absurd (by simp [Keyword.spelling_of_ofWord? he]) (hk k)
  unfold Scanner.wordKind
  cases h with
  | keyword k spelled => rw [← spelled, String.ofList_toList, Keyword.ofWord?_spelling]
  | builtin t spelled hk =>
    rw [noKeyword hk, ← spelled, String.ofList_toList, BuiltinType.ofWord?_spelling]
  | identifier hk ht =>
    rw [noKeyword hk]
    cases he : BuiltinType.ofWord? (String.ofList w) with
    | none => rfl
    | some t => exact absurd (by simp [BuiltinType.spelling_of_ofWord? he]) (ht t)

theorem exists_wordKind (w : List Char) : ∃ kind, WordKind w kind := by
  by_cases hk : ∃ k : Keyword, k.spelling.toList = w
  · obtain ⟨k, hk⟩ := hk
    exact ⟨_, .keyword k hk⟩
  · push Not at hk
    by_cases ht : ∃ t : BuiltinType, t.spelling.toList = w
    · obtain ⟨t, ht⟩ := ht
      exact ⟨_, .builtin t ht hk⟩
    · push Not at ht
      exact ⟨_, .identifier hk ht⟩

end Curly
