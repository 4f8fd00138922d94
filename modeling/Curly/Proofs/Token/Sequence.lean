import Curly.Proofs.Token.LongestMatch

/-!
# The tokens of a text in a row

What holds of the tokens of a text whatever the text is: each has a lexeme of its kind
(`Token.IsSpelled`), and after a comment the line ends (`Lined`). Comments go on as far as they
can, so the second rests on longest match.
-/

namespace Curly

/-- Tokens that end with the one end of input in them, and in which only a line end or the end of
input comes after a comment. -/
inductive Lined : List Token → Prop
  | last {t : Token} (isEof : t.kind = .eof) : Lined [t]
  | comment {t u : Token} {ts : List Token} (isComment : t.kind = .comment)
    (isEnd : u.kind = .newline ∨ u.kind = .eof) (later : Lined (u :: ts)) : Lined (t :: u :: ts)
  | token {t : Token} {ts : List Token} (notEof : t.kind ≠ .eof) (notComment : t.kind ≠ .comment)
    (later : Lined ts) : Lined (t :: ts)

theorem Lined.tail {t : Token} {ts : List Token} (h : Lined (t :: ts)) (ht : t.kind ≠ .eof) :
    Lined ts := by
  cases h with
  | last isEof => exact absurd isEof ht
  | comment _ _ later => exact later
  | token _ _ later => exact later

theorem Lined.eq_nil_of_eof {t : Token} {ts : List Token} (h : Lined (t :: ts))
    (ht : t.kind = .eof) : ts = [] := by
  cases h with
  | last => rfl
  | comment isComment => rw [isComment] at ht; cases ht
  | token notEof => exact absurd ht notEof

theorem Lined.of_append {ts us : List Token} (h : Lined (ts ++ us)) (hus : us ≠ []) : Lined us := by
  induction ts with
  | nil => exact h
  | cons t ts ih =>
    by_cases ht : t.kind = .eof
    · exact absurd (List.append_eq_nil_iff.1 (h.eq_nil_of_eof ht)).2 hus
    · exact ih (h.tail ht)

/-- Only the kinds of the tokens matter. -/
theorem Lined.of_map_kind {ts us : List Token} (h : Lined ts)
    (hkind : us.map Token.kind = ts.map Token.kind) : Lined us := by
  induction h generalizing us with
  | last isEof =>
    obtain ⟨u, rfl, hu⟩ := List.map_eq_singleton_iff.1 hkind
    exact .last (hu.trans isEof)
  | comment isComment isEnd later ih =>
    obtain ⟨u, us, rfl, hu, hus⟩ := List.map_eq_cons_iff.1 hkind
    obtain ⟨v, vs, rfl, hv, -⟩ := List.map_eq_cons_iff.1 hus
    exact .comment (hu.trans isComment) (by rwa [hv]) (ih hus)
  | token notEof notComment later ih =>
    obtain ⟨u, us, rfl, hu, hus⟩ := List.map_eq_cons_iff.1 hkind
    exact .token (by rwa [hu]) (by rwa [hu]) (ih hus)

/-- The token has a lexeme of its kind, and says of it what tokens of this kind do. -/
def Token.IsSpelled (t : Token) : Prop :=
  ∃ p lexeme, Lexeme lexeme (.ok t.kind) ∧ t = .ofLexeme p t.kind lexeme

/-! ## Lexemes of some kinds -/

theorem Lexeme.exists_comment {lexeme : List Char} (h : Lexeme lexeme (.ok .comment)) :
    ∃ body, lexeme = '#' :: body ∧ '\n' ∉ body := by
  cases h with
  | fixed listed =>
    have all : ∀ x ∈ fixedLexemes, x.2 ≠ .comment := by decide
    exact absurd rfl (all _ listed)
  | comment oneLine => exact ⟨_, rfl, oneLine⟩
  | word _ isKind => cases isKind

theorem Lexeme.exists_template {lexeme : List Char} (h : Lexeme lexeme (.ok .template)) :
    ∃ body, lexeme = '"' :: (body ++ ['"']) := by
  cases h with
  | fixed listed =>
    have all : ∀ x ∈ fixedLexemes, x.2 ≠ .template := by decide
    exact absurd rfl (all _ listed)
  | template => exact ⟨_, rfl⟩
  | word _ isKind => cases isKind

/-- A lexeme that begins with none of the characters that longer classes of lexemes begin with is
one of those that are always spelled the same. -/
theorem Lexeme.mem_fixedLexemes_of_head {c : Char} {cs : List Char} {kind : Token.Kind}
    (h : Lexeme (c :: cs) (.ok kind)) (hc : c ∉ ['#', '\'', '"', '.'])
    (hword : Scanner.isWordChar c = false) : (c :: cs, kind) ∈ fixedLexemes := by
  generalize hlexeme : c :: cs = lexeme at h ⊢
  cases h with
  | fixed listed => exact listed
  | comment | string | template =>
    cases hlexeme
    exact absurd (by decide) hc
  | word isWord => cases isWord with
    | intro first =>
      cases hlexeme
      rw [Scanner.isWordChar_of_isWordStart first] at hword
      cases hword
  | integer isRun | float isRun => cases isRun with
    | digit first =>
      cases hlexeme
      rw [Scanner.isWordChar_of_isDigit first] at hword
      cases hword
    | dot =>
      cases hlexeme
      exact absurd (by decide) hc

/-- A lexeme of a kind that lexemes have which are always spelled the same is one of those. -/
theorem Lexeme.mem_fixedLexemes_of_kind {cs : List Char} {kind : Token.Kind}
    (h : Lexeme cs (.ok kind)) (hkind : kind ∈ fixedLexemes.map Prod.snd) :
    (cs, kind) ∈ fixedLexemes := by
  cases h with
  | fixed listed => exact listed
  | comment | string | template | integer | float => exact absurd hkind (by decide)
  | word _ isKind => cases isKind <;> simp [fixedLexemes] at hkind

theorem Lexeme.eq_newline {cs : List Char} {kind : Token.Kind}
    (h : Lexeme ('\n' :: cs) (.ok kind)) : kind = .newline := by
  have all : ∀ x ∈ fixedLexemes, x.1.head? = some '\n' → x.2 = .newline := by decide
  exact all _ (h.mem_fixedLexemes_of_head (by decide) (by decide)) rfl

/-! ## Tokens of a text -/

variable {p : Position} {text rest lexeme : List Char} {t u : Token} {ts : List Token}

/-- What comes after a comment is the end of its line. -/
theorem head_of_comment (h : Reads p (lexeme ++ rest) (.ok t) lexeme) (ht : t.kind = .comment) :
    ∀ c ∈ rest.head?, c = '\n' := by
  intro c hc
  cases h with
  | @token _ kind isLongest =>
    obtain rfl : kind = .comment := ht
    obtain ⟨body, rfl, hbody⟩ := isLongest.isLexeme.exists_comment
    by_contra hne
    have hlonger : '\n' ∉ body ++ [c] := by
      rw [List.mem_append, List.mem_singleton]
      exact not_or.2 ⟨hbody, Ne.symm hne⟩
    exact Scanner.not_lexeme_of_longest isLongest hc (.comment hlonger)

theorem kind_of_head (h : Reads p text (.ok t) lexeme) (hc : text.head? = some '\n') :
    t.kind = .newline := by
  cases h with
  | @token _ kind isLongest =>
    obtain ⟨c, cs, rfl⟩ := List.exists_cons_of_ne_nil isLongest.isLexeme.ne_nil
    obtain ⟨later, rfl⟩ := isLongest.isStart
    obtain rfl : c = '\n' := by simpa using hc
    exact isLongest.isLexeme.eq_newline

theorem Token.IsSpelled.ne_eof (h : t.IsSpelled) : t.kind ≠ .eof := by
  obtain ⟨-, lexeme, hlexeme, -⟩ := h
  intro heof
  rw [heof] at hlexeme
  cases hlexeme with
  | fixed listed =>
    have all : ∀ x ∈ fixedLexemes, x.2 ≠ .eof := by decide
    exact all _ listed rfl
  | word _ isKind => cases isKind

theorem Reads.isSpelled (h : Reads p text (.ok t) lexeme) : t.IsSpelled := by
  cases h with
  | token isLongest => exact ⟨p, lexeme, isLongest.isLexeme, rfl⟩

/-- A text with tokens is empty, or starts with the lexeme of the first of them. -/
theorem Tokenizes.ok_cases (h : Tokenizes p text (.ok ts)) :
    (text = [] ∧ ts = []) ∨
      ∃ lexeme rest t us, text = lexeme ++ rest ∧ ts = t :: us ∧
        Reads p (lexeme ++ rest) (.ok t) lexeme ∧ Tokenizes (p.after lexeme) rest (.ok us) := by
  generalize hout : Except.ok ts = out at h
  cases h with
  | done =>
    cases hout
    exact .inl ⟨rfl, rfl⟩
  | @token _ lexeme rest t out reads later =>
    cases out with
    | error => cases hout
    | ok us =>
      obtain rfl : ts = t :: us := Except.ok.inj hout
      exact .inr ⟨lexeme, rest, t, us, rfl, rfl, reads, later⟩
  | fault => cases hout

/-- A text without tokens is empty. -/
theorem Tokenizes.text_eq_nil (h : Tokenizes p text (.ok [])) : text = [] := by
  obtain ⟨rfl, -⟩ | ⟨_, _, _, _, _, hts, -⟩ := h.ok_cases
  · rfl
  · cases hts

/-- The empty text has no tokens. -/
theorem Tokenizes.eq_nil (h : Tokenizes p [] (.ok ts)) : ts = [] := by
  obtain ⟨-, rfl⟩ | ⟨_, _, _, _, hnil, -, reads, -⟩ := h.ok_cases
  · rfl
  · exact absurd (List.append_eq_nil_iff.1 hnil.symm).1 reads.ne_nil

/-- A text with tokens starts with the lexeme of the first. -/
theorem Tokenizes.exists_cons (h : Tokenizes p text (.ok (t :: ts))) :
    ∃ lexeme rest, text = lexeme ++ rest ∧ Reads p (lexeme ++ rest) (.ok t) lexeme ∧
      Tokenizes (p.after lexeme) rest (.ok ts) := by
  obtain ⟨-, hts⟩ | ⟨lexeme, rest, u, us, htext, hts, reads, later⟩ := h.ok_cases
  · cases hts
  · obtain ⟨rfl, rfl⟩ := List.cons.inj hts
    exact ⟨lexeme, rest, htext, reads, later⟩

theorem Tokenizes.reads_of_singleton (h : Tokenizes p text (.ok [t])) :
    Reads p text (.ok t) text := by
  obtain ⟨lexeme, rest, rfl, reads, later⟩ := h.exists_cons
  obtain rfl := later.text_eq_nil
  rwa [List.append_nil] at reads ⊢

/-- **Every token of a text is spelled by a lexeme of its kind.** -/
theorem Tokenizes.isSpelled (h : Tokenizes p text (.ok ts)) : ∀ t ∈ ts, t.IsSpelled := by
  induction ts generalizing p text with
  | nil => simp
  | cons t ts ih =>
    obtain ⟨lexeme, rest, rfl, reads, later⟩ := h.exists_cons
    exact List.forall_mem_cons.2 ⟨reads.isSpelled, ih later⟩

/-- **In the tokens of a text a comment ends its line.** -/
theorem Tokenizes.lined (h : Tokenizes p text (.ok ts)) (hu : u.kind = .eof) :
    Lined (ts ++ [u]) := by
  induction ts generalizing p text with
  | nil => exact .last hu
  | cons t ts ih =>
    obtain ⟨lexeme, rest, rfl, reads, later⟩ := h.exists_cons
    by_cases ht : t.kind = .comment
    · have hhead := head_of_comment reads ht
      obtain ⟨-, rfl⟩ | ⟨lexeme', rest', v, vs, rfl, rfl, reads', -⟩ := later.ok_cases
      · exact .comment ht (.inr hu) (ih later)
      · obtain ⟨c, cs, hlexeme'⟩ := List.exists_cons_of_ne_nil reads'.ne_nil
        have hc : (lexeme' ++ rest').head? = some c := by rw [hlexeme']; rfl
        rw [hhead c hc] at hc
        exact .comment ht (.inl (kind_of_head reads' hc)) (ih later)
    · exact .token reads.isSpelled.ne_eof ht (ih later)

theorem Source.exists_tokenizes (src : Source) :
    ∃ out, Tokenizes Position.origin src.chars out :=
  ⟨_, Scanner.tokenizes_collect (Scanner.atStart src.chars)⟩

/-- A source has the tokens and the error that its text has. -/
theorem Source.tokens?_of_tokenizes {src : Source} {out : Except LexicalError (List Token)}
    (h : Tokenizes Position.origin src.chars out) :
    src.tokens? = out.map (· ++ [Token.endOfInput src.stop]) := by
  rw [← (Scanner.tokenizes_collect (Scanner.atStart src.chars)).unique h, Source.tokens?,
    Source.scan]

/-- The tokens of a source are those of its text, and then the end of input. -/
theorem Source.exists_of_tokens? {src : Source} (h : src.tokens? = .ok ts) :
    ∃ us, ts = us ++ [Token.endOfInput src.stop] ∧
      Tokenizes Position.origin src.chars (.ok us) := by
  have hcut := Scanner.tokenizes_collect (Scanner.atStart src.chars)
  rw [Source.tokens?, Source.scan] at h
  cases hcollect : Scanner.collect (Scanner.atStart src.chars).results with
  | error e =>
    rw [hcollect] at h
    cases h
  | ok us =>
    rw [hcollect] at h hcut
    exact ⟨us, (Except.ok.inj h).symm, hcut⟩

end Curly
