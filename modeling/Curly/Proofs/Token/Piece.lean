import Curly.Proofs.Token.Next

/-!
# Writing tokens

The other way from scanning: a text is put together from pieces, each a lexeme with the kind that
it is meant to have. `Stand` says that none of the pieces runs into what comes after it, and then
the tokens of the text are the pieces at their places (`tokens?_of_stand`). Most pieces stand
before anything; words do unless a word goes on after them, and a colon unless `=` follows.
-/

namespace Curly

/-- A lexeme and its kind. -/
structure Piece where
  kind : Token.Kind
  lexeme : List Char

namespace Piece

variable {x : Piece} {xs ys : List Piece} {rest : List Char}

/-- The token of the piece at `p`. -/
def token (x : Piece) (p : Position) : Token := .ofLexeme p x.kind x.lexeme

@[simp] theorem token_kind (x : Piece) (p : Position) : (x.token p).kind = x.kind := rfl

@[simp] theorem token_text (x : Piece) (p : Position) :
    (x.token p).text = x.kind.literal x.lexeme := rfl

/-- The text that is put together from the pieces. -/
def spell (xs : List Piece) : List Char := xs.flatMap lexeme

@[simp] theorem spell_nil : spell [] = [] := rfl

@[simp] theorem spell_cons : spell (x :: xs) = x.lexeme ++ spell xs := List.flatMap_cons

@[simp] theorem spell_append : spell (xs ++ ys) = spell xs ++ spell ys := List.flatMap_append

/-- The tokens of the pieces, the first at `p`. -/
def place : Position → List Piece → List Token
  | _, [] => []
  | p, x :: xs => x.token p :: place (p.after x.lexeme) xs

@[simp] theorem place_nil (p : Position) : place p [] = [] := rfl

@[simp] theorem place_cons (p : Position) :
    place p (x :: xs) = x.token p :: place (p.after x.lexeme) xs := rfl

@[simp] theorem place_append (p : Position) :
    place p (xs ++ ys) = place p xs ++ place (p.after (spell xs)) ys := by
  induction xs generalizing p with
  | nil => rfl
  | cons x xs ih => rw [List.cons_append, place_cons, ih, place_cons, spell_cons,
      Position.after_append, List.cons_append]

/-- The token of each piece has its kind. -/
theorem exists_of_mem_place {p : Position} {t : Token} (h : t ∈ place p xs) :
    ∃ x ∈ xs, ∃ q, t = x.token q := by
  induction xs generalizing p with
  | nil => cases h
  | cons x xs ih =>
    rcases List.mem_cons.1 h with rfl | h
    · exact ⟨x, List.mem_cons_self, p, rfl⟩
    · obtain ⟨y, hy, hq⟩ := ih h
      exact ⟨y, List.mem_cons_of_mem _ hy, hq⟩

/-- Scanning reads the piece where `rest` comes after it. -/
def StandsBefore (rest : List Char) (x : Piece) : Prop :=
  ∀ s : Scanner, s.rest = x.lexeme ++ rest →
    s.next = (some (.ok (x.token s.here)), ⟨s.here, x.lexeme, rest⟩)

/-- Scanning reads each of the pieces where `rest` comes after the last. -/
def Stand (rest : List Char) : List Piece → Prop
  | [] => True
  | x :: xs => x.StandsBefore (spell xs ++ rest) ∧ Stand rest xs

@[simp] theorem stand_nil : Stand rest [] := trivial

@[simp] theorem stand_cons :
    Stand rest (x :: xs) ↔ x.StandsBefore (spell xs ++ rest) ∧ Stand rest xs := Iff.rfl

@[simp] theorem stand_append :
    Stand rest (xs ++ ys) ↔ Stand (spell ys ++ rest) xs ∧ Stand rest ys := by
  induction xs with
  | nil => simp
  | cons x xs ih => rw [List.cons_append, stand_cons, stand_cons, ih, spell_append,
      List.append_assoc, and_assoc]

/-- **Pieces that stand are read one after the other.** -/
theorem collect_of_stand (h : Stand [] xs) (s : Scanner) (hs : s.rest = spell xs) :
    Scanner.collect s.results = .ok (place s.here xs) := by
  induction xs generalizing s with
  | nil =>
    rw [Scanner.results_of_rest_nil hs]
    rfl
  | cons x xs ih =>
    obtain ⟨hx, hxs⟩ := stand_cons.1 h
    rw [List.append_nil] at hx
    have hnext := hx s (by rw [hs, spell_cons])
    have hlater := ih hxs ⟨s.here, x.lexeme, spell xs⟩ rfl
    rw [Scanner.results_of_next hnext, Scanner.collect, hlater]
    rfl

theorem tokens?_of_stand {src : Source} (h : Stand [] xs) (hspell : src.chars = spell xs) :
    src.tokens? = .ok (place Position.origin xs ++ [Token.endOfInput src.stop]) := by
  have hcollect := collect_of_stand h (Scanner.atStart src.chars) hspell
  rw [Source.tokens?, Source.scan, hcollect]
  rfl

/-! ## Pieces that are always spelled the same -/

/-- A blank. -/
def blank (c : Char) : Piece := ⟨.spacing, [c]⟩

def space : Piece := blank ' '

def newline : Piece := ⟨.newline, ['\n']⟩

def lbrace : Piece := ⟨.lbrace, ['\x7b']⟩

def rbrace : Piece := ⟨.rbrace, ['\x7d']⟩

def lparen : Piece := ⟨.lparen, ['(']⟩

def rparen : Piece := ⟨.rparen, [')']⟩

def colon : Piece := ⟨.colon, [':']⟩

def asterisk : Piece := ⟨.operator, ['*']⟩

def arrow : Piece := ⟨.arrow, ['-', '>']⟩

/-- A piece of one character that scanning accepts as it stands. -/
theorem standsBefore_of_accept {c : Char} {kind : Token.Kind}
    (hliteral : kind.literal [c] = String.ofList [c])
    (h : ∀ s : Scanner, s.rest = rest → s.afterFirst c = s.accept kind) :
    (⟨kind, [c]⟩ : Piece).StandsBefore rest := by
  intro s hs
  rw [Scanner.next_of_rest hs, h _ rfl]
  exact congrArg (fun r => (some r.1, r.2)) (Scanner.accept_eq s.here rest hliteral)

theorem standsBefore_punctuation {c : Char} {kind : Token.Kind}
    (h : Scanner.punctuation? c = some kind) : (⟨kind, [c]⟩ : Piece).StandsBefore rest := by
  have hliteral := Scanner.literal_of_mem_fixedLexemes _ (Scanner.mem_fixedLexemes_of_punctuation h)
  exact standsBefore_of_accept (hliteral.resolve_left (by simp))
    fun s _ => Scanner.afterFirst_of_punctuation h

theorem standsBefore_blank {c : Char} (h : c = ' ' ∨ c = '\t') : (blank c).StandsBefore rest := by
  rcases h with rfl | rfl <;> exact standsBefore_punctuation rfl

@[simp] theorem standsBefore_space : space.StandsBefore rest := standsBefore_blank (.inl rfl)

@[simp] theorem standsBefore_newline : newline.StandsBefore rest := standsBefore_punctuation rfl

@[simp] theorem standsBefore_lbrace : lbrace.StandsBefore rest := standsBefore_punctuation rfl

@[simp] theorem standsBefore_rbrace : rbrace.StandsBefore rest := standsBefore_punctuation rfl

@[simp] theorem standsBefore_lparen : lparen.StandsBefore rest := standsBefore_punctuation rfl

@[simp] theorem standsBefore_rparen : rparen.StandsBefore rest := standsBefore_punctuation rfl

theorem standsBefore_colon (h : rest.head? ≠ some '=') : colon.StandsBefore rest := by
  refine standsBefore_of_accept rfl fun s hs => ?_
  have hpair : Scanner.pair? ':' s.peek? = none := by
    rw [Scanner.peek?, hs]
    unfold Scanner.pair?
    split <;>
      first
      | rfl
      | exact absurd ‹rest.head? = some '='› h
      | exact absurd ‹(':' : Char) = _› (by decide)
  unfold Scanner.afterFirst
  rw [hpair]
  rfl

@[simp] theorem standsBefore_asterisk : asterisk.StandsBefore rest :=
  standsBefore_of_accept rfl fun _ _ => Scanner.afterFirst_of_operator (.inr rfl) rfl

@[simp] theorem standsBefore_arrow : arrow.StandsBefore rest := by
  intro s hs
  rw [Scanner.next_of_rest (show s.rest = '-' :: '>' :: rest from hs)]
  rfl

/-! ## Words and strings -/

/-- The piece of an identifier or of a type, according to how it is spelled. -/
def word (s : String) : Piece := ⟨Scanner.wordKind s, s.toList⟩

@[simp] theorem word_lexeme (s : String) : (word s).lexeme = s.toList := rfl

def keyword (k : Keyword) : Piece := ⟨.keyword k, k.spelling.toList⟩

def quoted (s : String) : Piece := ⟨.string, '\'' :: (s.toList ++ ['\''])⟩

theorem word_kind {s : String} {kind : Token.Kind} (h : WordKind s.toList kind) :
    (word s).kind = kind := by
  rw [word, ← String.ofList_toList (s := s), Scanner.wordKind_of_wordKind h]

theorem standsBefore_word {s : String} {kind : Token.Kind} (hword : IsWord s.toList)
    (hkind : WordKind s.toList kind) (h : ∀ c ∈ rest.head?, Scanner.isWordChar c = false) :
    (word s).StandsBefore rest := by
  intro scanner hs
  rw [Scanner.next_of_word hword hkind h hs, token, word_kind hkind, word_lexeme]

theorem isWord_of_all {cs : List Char} (first : cs.head?.any Scanner.isWordStart)
    (more : cs.tail.all Scanner.isWordChar) : IsWord cs := by
  cases cs with
  | nil => cases first
  | cons c cs => exact .intro first (List.all_eq_true.1 more)

theorem isWord_spelling (k : Keyword) : IsWord k.spelling.toList := by
  cases k <;> exact isWord_of_all (by decide) (by decide)

theorem standsBefore_keyword {k : Keyword}
    (h : ∀ c ∈ rest.head?, Scanner.isWordChar c = false) : (keyword k).StandsBefore rest :=
  fun _ hs => Scanner.next_of_word (isWord_spelling k) (.keyword k rfl) h hs

theorem standsBefore_quoted {s : String}
    (h : ∀ c ∈ s.toList, c ≠ '\'' ∧ c ≠ '\r' ∧ c ≠ '\n') : (quoted s).StandsBefore rest := by
  intro scanner hs
  exact Scanner.next_of_string h (by rw [hs]; simp [quoted])

end Piece

end Curly
