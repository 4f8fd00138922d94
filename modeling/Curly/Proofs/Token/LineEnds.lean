import Curly.Proofs.Text.LineEnds
import Curly.Proofs.Token.Unplaced

/-!
# Tokens of a text with carriage returns

With a carriage return before every line feed a text has the same tokens on the same lines in the
same columns, or the same error (`Source.sameCut_withReturns`). Only a comment makes a difference,
since it goes on up to the line feed: its literal leaves the carriage return out, but the line end
after it starts one column further on (`SameTokens`).

No lexeme but a comment ends in a carriage return, so the longest lexemes of the one text are those
of the other with carriage returns put in (`Longest.withReturns`).
-/

namespace Curly

open Text

variable {p q : Position} {text lexeme rest : List Char} {kind : Token.Kind} {t t' u u' : Token}
  {ts us : List Token} {r : Except LexicalError.Cause Token.Kind}

/-! ## Lexemes -/

/-- Taking the carriage returns out of a lexeme leaves a lexeme. -/
theorem Lexeme.withoutReturns (h : Lexeme lexeme r) : Lexeme (withoutReturns lexeme) r := by
  by_cases hr : '\r' ∈ lexeme
  · cases h with
    | fixed listed =>
      have all : ∀ x ∈ fixedLexemes, (Text.withoutReturns x.1, x.2) ∈ fixedLexemes := by decide
      exact .fixed (all _ listed)
    | @comment body oneLine =>
      have hbody : '\n' ∉ Text.withoutReturns body := fun hn => oneLine (List.mem_filter.1 hn).1
      exact .comment hbody
    | @string body inside =>
      have hbody : '\r' ∈ body := by simpa using hr
      exact absurd rfl (inside _ hbody).2.1
    | @template body inside =>
      have hsplit : Text.withoutReturns ('"' :: (body ++ ['"'])) =
          '"' :: (Text.withoutReturns body ++ ['"']) :=
        congrArg ('"' :: ·) (withoutReturns_append body ['"'])
      rw [hsplit]
      exact .template fun hq => inside (List.mem_filter.1 hq).1
    | word isWord => exact absurd (isWord.forall_mem _ hr) (by decide)
    | integer isRun | float isRun | malformed isRun =>
      exact absurd (isRun.forall_mem _ hr) (by decide)
  · rwa [withoutReturns_of_not_mem hr]

/-- Putting carriage returns into a lexeme leaves a lexeme. -/
theorem Lexeme.withReturns (h : Lexeme lexeme r) (hr : '\r' ∉ lexeme) :
    Lexeme (withReturns lexeme) r := by
  by_cases hn : '\n' ∈ lexeme
  · cases h with
    | fixed listed =>
      have all : ∀ x ∈ fixedLexemes, '\r' ∉ x.1 →
          (Text.withReturns x.1, x.2) ∈ fixedLexemes := by decide
      exact .fixed (all _ listed hr)
    | @comment body oneLine =>
      have hbody : '\n' ∈ body := by simpa using hn
      exact absurd hbody oneLine
    | @string body inside =>
      have hbody : '\n' ∈ body := by simpa using hn
      exact absurd rfl (inside _ hbody).2.2
    | @template body inside =>
      rw [withReturns_cons_of_ne (by decide), withReturns_append]
      exact .template fun hq => inside ((mem_withReturns (by decide)).1 hq)
    | word isWord => exact absurd (isWord.forall_mem _ hn) (by decide)
    | integer isRun | float isRun | malformed isRun =>
      exact absurd (isRun.forall_mem _ hn) (by decide)
  · rwa [withReturns_of_not_mem hn]

/-- A lexeme that ends in a carriage return is a comment. -/
theorem Lexeme.head?_of_return (h : Lexeme (text ++ ['\r']) r) : text.head? = some '#' := by
  cases r with
  | ok kind =>
    obtain ⟨-, body, rfl, -⟩ := h.exists_comment_of_return
    rfl
  | error cause =>
    have hmem : '\r' ∈ text ++ ['\r'] := by simp
    generalize text ++ ['\r'] = lexeme at h hmem
    cases h with
    | malformed isRun => exact absurd (isRun.forall_mem '\r' hmem) (by decide)

theorem Lexeme.eq_comment {cs : List Char} (h : Lexeme ('#' :: cs) r) : r = .ok .comment := by
  generalize hlexeme : '#' :: cs = lexeme at h
  cases h with
  | fixed listed =>
    have all : ∀ x ∈ fixedLexemes, x.1.head? ≠ some '#' := by decide
    exact absurd (by rw [← hlexeme]; rfl) (all _ listed)
  | comment => rfl
  | string | template => cases hlexeme
  | word isWord => exact absurd (isWord.forall_mem '#' (hlexeme ▸ List.mem_cons_self)) (by decide)
  | integer isRun | float isRun | malformed isRun =>
    exact absurd (isRun.forall_mem '#' (hlexeme ▸ List.mem_cons_self)) (by decide)

/-- **The longest lexeme of a text is the longest one with carriage returns too**, unless it is a
comment before a line end. -/
theorem Longest.withReturns (h : Longest text lexeme r) (hr : '\r' ∉ text)
    (hcomment : r = .ok .comment → lexeme = text) :
    Longest (withReturns text) (withReturns lexeme) r := by
  have hstart' : Text.withReturns lexeme <+: Text.withReturns text := by
    obtain ⟨rest, rfl⟩ := h.isStart
    exact ⟨_, (withReturns_append lexeme rest).symm⟩
  have hlexeme : '\r' ∉ lexeme := fun hmem => hr (h.isStart.subset hmem)
  refine ⟨h.isLexeme.withReturns hlexeme, hstart', fun l r' hl hstart => ?_⟩
  by_contra hlonger
  obtain ⟨extra, rfl⟩ : Text.withReturns lexeme <+: l :=
    List.prefix_of_prefix_length_le hstart' hstart (by omega)
  -- without carriage returns `l` is no longer than the lexeme, so only these come after it
  have hshort := h.longest _ r' hl.withoutReturns (withoutReturns_start hr hstart)
  rw [withoutReturns_append, withoutReturns_withReturns hlexeme, List.length_append] at hshort
  have hextra : Text.withoutReturns extra = [] := List.length_eq_zero_iff.1 (by omega)
  rcases List.eq_nil_or_concat extra with rfl | ⟨before, c, rfl⟩
  · simp at hlonger
  · have hc : c = '\r' := by
      simpa using List.filter_eq_nil_iff.1 hextra c (by simp)
    rw [List.concat_eq_append, hc, ← List.append_assoc] at hl
    obtain ⟨d, cs, rfl⟩ := List.exists_cons_of_ne_nil h.isLexeme.ne_nil
    obtain rfl : d = '#' := by
      have hhead := hl.head?_of_return
      by_cases hd : d = '\n'
      · rw [hd, withReturns_newline] at hhead
        cases hhead
      · rw [withReturns_cons_of_ne hd] at hhead
        exact Option.some.inj hhead
    rw [← hcomment h.isLexeme.eq_comment] at hstart
    exact hlonger hstart.length_le

/-- A text that starts with no lexeme starts with none with carriage returns either. -/
theorem NoLexeme.withReturns (h : NoLexeme text) (hr : '\r' ∉ text) :
    NoLexeme (withReturns text) := fun _ r hl hstart =>
  h _ r hl.withoutReturns (withoutReturns_start hr hstart)

/-- What a token says of its lexeme is the same with carriage returns, but for those in a
template. -/
theorem Lexeme.literal_withReturns (h : Lexeme lexeme (.ok kind)) :
    kind.literal (Text.withReturns lexeme) = if kind = .template
      then String.ofList (Text.withReturns (kind.literal lexeme).toList)
      else kind.literal lexeme := by
  by_cases hkind : kind = .template
  · subst hkind
    obtain ⟨body, rfl⟩ := h.exists_template
    rw [if_pos rfl, withReturns_cons_of_ne (by decide), withReturns_append]
    simp [Token.Kind.literal, withReturns_of_not_mem]
  · rw [if_neg hkind]
    by_cases hn : '\n' ∈ lexeme
    · obtain ⟨-, rfl⟩ := h.newline_of_mem hn hkind
      rfl
    · rw [withReturns_of_not_mem hn]

/-! ## Tokens -/

/-- The token `t'` is `t` in a text with carriage returns, where it starts `shift` columns further
on. -/
structure Token.Same (shift : Nat) (t t' : Token) : Prop where
  kind : t'.kind = t.kind
  line : t'.span.start.line = t.span.start.line
  column : t'.span.start.column = t.span.start.column + shift
  stopLine : t'.span.stop.line = t.span.stop.line
  literal : t'.literal = t.literal.map fun text =>
    if t.kind = .template then String.ofList (withReturns text.toList) else text

/-- The tokens of a text and those that it has with carriage returns. They stand in the same
places, but for line ends after comments. -/
inductive SameTokens : List Token → List Token → Prop
  | nil : SameTokens [] []
  | token {t t' : Token} {ts us : List Token} (first : t.Same 0 t')
    (next : t.kind = .comment → ∀ u ∈ ts.head?, u.kind ≠ .newline) (later : SameTokens ts us) :
    SameTokens (t :: ts) (t' :: us)
  | comment {t t' u u' : Token} {ts us : List Token} (isComment : t.kind = .comment)
    (isNewline : u.kind = .newline) (first : t.Same 0 t') (second : u.Same 1 u')
    (later : SameTokens ts us) : SameTokens (t :: u :: ts) (t' :: u' :: us)

/-- The error `e'` is `e` in a text with carriage returns. -/
structure LexicalError.Same (e e' : LexicalError) : Prop where
  cause : e'.cause = e.cause
  start : e'.span.start.Beside e.span.start
  stop : e'.span.stop.Beside e.span.stop

/-- The same tokens or the same error. -/
inductive SameCut : Except LexicalError (List Token) → Except LexicalError (List Token) → Prop
  | ok {ts us : List Token} (tokens : SameTokens ts us) : SameCut (.ok ts) (.ok us)
  | error {e e' : LexicalError} (same : e.Same e') : SameCut (.error e) (.error e')

theorem Longest.same (h : Longest text lexeme (.ok kind)) (hq : q.Beside p) :
    (Token.ofLexeme p kind lexeme).Same 0 (.ofLexeme q kind (Text.withReturns lexeme)) :=
  ⟨rfl, hq.line, hq.column, (hq.after lexeme).line, congrArg some h.isLexeme.literal_withReturns⟩

/-- A text without line ends ends in the same place, wherever it starts. -/
theorem Position.Beside.after_of_not_mem (hq : q.Beside p) (h : '\n' ∉ text) :
    (q.after text).Beside (p.after text) := by
  have hafter := hq.after text
  rwa [withReturns_of_not_mem h] at hafter

/-- **An error at the start of a text is the same with carriage returns.** -/
theorem Reads.exists_error_withReturns {e : LexicalError} (h : Reads p text (.error e) lexeme)
    (hr : '\r' ∉ text) (hq : q.Beside p) :
    ∃ e' lexeme', Reads q (withReturns text) (.error e') lexeme' ∧ e.Same e' := by
  cases h with
  | malformed isLongest =>
    have hlongest := isLongest.withReturns hr nofun
    have hn : '\n' ∉ lexeme := by
      cases isLongest.isLexeme with
      | malformed isRun => exact fun hn => absurd (isRun.forall_mem _ hn) (by decide)
    rw [withReturns_of_not_mem hn] at hlongest
    exact ⟨_, _, .malformed hlongest, rfl, hq, hq.after_of_not_mem hn⟩
  | @openString body tail noLexeme split inside stop =>
    have hn : '\n' ∉ '\'' :: body :=
      List.not_mem_cons_of_ne_of_not_mem (by decide) fun hn => (inside _ hn).2.2 rfl
    have hsplit : Text.withReturns text = '\'' :: (body ++ Text.withReturns tail) := by
      rw [split, ← List.cons_append, withReturns_append, withReturns_of_not_mem hn,
        List.cons_append]
    refine ⟨_, _, .openString (noLexeme.withReturns hr) hsplit inside fun c hc => ?_, rfl, hq,
      hq.after_of_not_mem hn⟩
    rcases tail with _ | ⟨d, tail⟩
    · cases hc
    · by_cases hd : d = '\n'
      · rw [hd, withReturns_newline] at hc
        exact .inl (Option.some.inj hc).symm
      · rw [withReturns_cons_of_ne hd] at hc
        exact stop c hc
  | @openTemplate body noLexeme split inside =>
    have hsplit : Text.withReturns text = '"' :: Text.withReturns body := by
      rw [split, withReturns_cons_of_ne (by decide)]
    exact ⟨_, _, .openTemplate (noLexeme.withReturns hr) hsplit
      fun hd => inside ((mem_withReturns (by decide)).1 hd), rfl, hq, hq.after text⟩
  | @unexpected c cs noLexeme split notQuote notDoubleQuote =>
    have hc : c ≠ '\n' := by
      rintro rfl
      exact noLexeme ['\n'] (.ok .newline) (.fixed (by decide)) ⟨cs, split.symm⟩
    have hsplit : Text.withReturns text = c :: Text.withReturns cs := by
      rw [split, withReturns_cons_of_ne hc]
    exact ⟨_, _, .unexpected (noLexeme.withReturns hr) hsplit notQuote notDoubleQuote, rfl, hq, hq⟩

theorem SameCut.token {out out' : Except LexicalError (List Token)} (h : SameCut out out')
    (first : t.Same 0 t')
    (next : t.kind = .comment → ∀ ts, out = .ok ts → ∀ u ∈ ts.head?, u.kind ≠ .newline) :
    SameCut (out.map (t :: ·)) (out'.map (t' :: ·)) := by
  cases h with
  | ok tokens => exact .ok (.token first (fun ht => next ht _ rfl) tokens)
  | error same => exact .error same

theorem SameCut.comment {out out' : Except LexicalError (List Token)} (h : SameCut out out')
    (isComment : t.kind = .comment) (isNewline : u.kind = .newline) (first : t.Same 0 t')
    (second : u.Same 1 u') :
    SameCut ((out.map (u :: ·)).map (t :: ·)) ((out'.map (u' :: ·)).map (t' :: ·)) := by
  cases h with
  | ok tokens => exact .ok (.comment isComment isNewline first second tokens)
  | error same => exact .error same

/-! ## Comments -/

/-- A comment goes on up to the line feed and says the same. -/
theorem Token.same_comment {body : List Char} (hbody : '\n' ∉ body) (hq : q.Beside p) :
    (ofLexeme p .comment ('#' :: body)).Same 0 (ofLexeme q .comment ('#' :: body ++ ['\r'])) := by
  have hn : '\n' ∉ '#' :: body := List.not_mem_cons_of_ne_of_not_mem (by decide) hbody
  refine ⟨rfl, hq.line, hq.column, ?_, ?_⟩
  · rw [ofLexeme_span, Position.after_append]
    exact (hq.after_of_not_mem hn).line
  · exact congrArg (some <| String.ofList ·) (trim_append_return body)

/-- The line end after it starts one column further on. -/
theorem Token.same_newline (hline : q.line = p.line) (hcolumn : q.column = p.column + 1) :
    (Piece.newline.token p).Same 1 (Piece.newline.token q) :=
  ⟨rfl, hline, hcolumn, (Position.beside_next hline).line, rfl⟩

/-- **A text that starts with a comment and a line end** has both of them with carriage returns,
and then what it has after them. -/
theorem Tokenizes.exists_comment_withReturns {body : List Char}
    {out out' : Except LexicalError (List Token)}
    (hbody : '\n' ∉ body) (hq : q.Beside p) (hsame : SameCut out out')
    (h : Tokenizes (((q.after ('#' :: body)).next '\r').next '\n') (Text.withReturns rest) out') :
    ∃ out'', Tokenizes q (Text.withReturns ('#' :: body ++ '\n' :: rest)) out'' ∧
      SameCut ((out.map (Piece.newline.token (p.after ('#' :: body)) :: ·)).map
        (.ofLexeme p .comment ('#' :: body) :: ·)) out'' := by
  have hn : '\n' ∉ '#' :: body := List.not_mem_cons_of_ne_of_not_mem (by decide) hbody
  have hreturn : '\n' ∉ body ++ ['\r'] := by simpa using hbody
  have hsplit : Text.withReturns ('#' :: body ++ '\n' :: rest) =
      ('#' :: body ++ ['\r']) ++ '\n' :: Text.withReturns rest := by
    rw [withReturns_append, withReturns_of_not_mem hn, withReturns_newline]
    simp
  have hlongest : Longest ('#' :: body ++ ['\r']) ('#' :: body ++ ['\r']) (.ok .comment) :=
    ⟨.comment hreturn, List.prefix_rfl, fun l _ _ hl => hl.length_le⟩
  rw [hsplit]
  have hafter : q.after ('#' :: body ++ ['\r']) = (q.after ('#' :: body)).next '\r' :=
    Position.after_append _ _ _
  rw [← hafter] at h
  have hcut := Tokenizes.token (.token (hlongest.append (.inl rfl) _)) h.newline
  refine ⟨_, hcut, hsame.comment rfl rfl (Token.same_comment hbody hq)
    (Token.same_newline ?_ ?_)⟩
  · rw [hafter]
    exact (hq.after_of_not_mem hn).line
  · rw [hafter]
    exact congrArg (· + 1) (hq.after_of_not_mem hn).column

/-! ## Texts -/

/-- **A text has the same tokens with carriage returns**, or the same error. -/
theorem Tokenizes.exists_withReturns {p q : Position} {text : List Char}
    {out : Except LexicalError (List Token)} (h : Tokenizes p text out) (hr : '\r' ∉ text)
    (hq : q.Beside p) : ∃ out', Tokenizes q (withReturns text) out' ∧ SameCut out out' := by
  cases h with
  | done => exact ⟨_, .done q, .ok .nil⟩
  | fault reads =>
    obtain ⟨e', lexeme', hreads, hsame⟩ := reads.exists_error_withReturns hr hq
    exact ⟨_, .fault hreads, .error hsame⟩
  | @token _ lexeme rest t out reads later =>
    have hne := reads.ne_nil
    have hrest : '\r' ∉ rest := fun hmem => hr (List.mem_append_right _ hmem)
    by_cases hend : t.kind = .comment ∧ ∃ rest', rest = '\n' :: rest'
    · obtain ⟨ht, rest', rfl⟩ := hend
      cases reads with
      | @token _ kind isLongest =>
        obtain rfl : kind = .comment := ht
        obtain ⟨body, rfl, hbody⟩ := isLongest.isLexeme.exists_comment
        have hn : '\n' ∉ '#' :: body := List.not_mem_cons_of_ne_of_not_mem (by decide) hbody
        have hcut := Scanner.tokenizes_collect ⟨(p.after ('#' :: body)).next '\n', [], rest'⟩
        obtain rfl := later.unique hcut.newline
        obtain ⟨out', hout, hsame⟩ := exists_withReturns hcut
          (fun hmem => hrest (List.mem_cons_of_mem _ hmem))
          (Position.beside_next (q := (q.after ('#' :: body)).next '\r')
            (hq.after_of_not_mem hn).line)
        exact exists_comment_withReturns hbody hq hsame hout
    · have hhead : t.kind = .comment → rest = [] := by
        intro ht
        rcases rest with _ | ⟨c, rest⟩
        · rfl
        · obtain rfl := head_of_comment reads ht c rfl
          exact absurd ⟨ht, rest, rfl⟩ hend
      cases reads with
      | @token _ kind isLongest =>
        obtain ⟨out', hout, hsame⟩ := exists_withReturns later hrest (hq.after lexeme)
        have hlongest := isLongest.withReturns hr fun hkind => by
          rw [hhead (Except.ok.inj hkind), List.append_nil]
        rw [withReturns_append] at hlongest ⊢
        refine ⟨_, .token (.token hlongest) hout, hsame.token (isLongest.same hq) ?_⟩
        rintro ht ts rfl
        rw [hhead ht] at later
        rw [later.eq_nil]
        exact nofun
  termination_by text.length
  decreasing_by
    all_goals
      subst_vars
      have := List.length_pos_iff.2 hne
      simp only [List.length_append, List.length_cons]
      omega

/-! ## Sources -/

theorem SameTokens.concat (h : SameTokens ts us) (hlast : t.Same 0 t') (ht : t.kind ≠ .newline) :
    SameTokens (ts ++ [t]) (us ++ [t']) := by
  induction h with
  | nil => exact .token hlast nofun .nil
  | @token v v' ts us first next later ih =>
    refine .token first (fun hv u hu => ?_) ih
    rcases ts with _ | ⟨w, ts⟩
    · rwa [← Option.some.inj hu]
    · exact next hv u hu
  | comment isComment isNewline first second later ih =>
    exact .comment isComment isNewline first second ih

theorem Token.same_endOfInput (hq : q.Beside p) : (endOfInput p).Same 0 (endOfInput q) :=
  ⟨rfl, hq.line, hq.column, hq.line, rfl⟩

theorem SameTokens.map_kind (h : SameTokens ts us) :
    us.map Token.kind = ts.map Token.kind := by
  induction h with
  | nil => rfl
  | token first _ _ ih => rw [List.map_cons, List.map_cons, first.kind, ih]
  | comment _ _ first second _ ih => simp only [List.map_cons, first.kind, second.kind, ih]

theorem Token.Same.literal_eq {shift : Nat} (h : t.Same shift t') (ht : t.kind ≠ .template) :
    t'.literal = t.literal := by
  have hliteral := h.literal
  simp only [if_neg ht, Option.map_id'] at hliteral
  exact hliteral

/-- A token that is no template is the same but for its place. -/
theorem Token.Same.unplaced {shift : Nat} (h : t.Same shift t') (ht : t.kind ≠ .template) :
    t'.unplaced = t.unplaced := by
  rw [Token.unplaced, Token.unplaced, Token.move, Token.move, h.kind, h.literal_eq ht]
  rfl

theorem SameTokens.map_unplaced (h : SameTokens ts us) (htemplate : ∀ t ∈ ts, t.kind ≠ .template) :
    us.map Token.unplaced = ts.map Token.unplaced := by
  induction h with
  | nil => rfl
  | token first _ _ ih =>
    obtain ⟨ht, hts⟩ := List.forall_mem_cons.1 htemplate
    rw [List.map_cons, List.map_cons, first.unplaced ht, ih hts]
  | comment _ _ first second _ ih =>
    obtain ⟨ht, hts⟩ := List.forall_mem_cons.1 htemplate
    obtain ⟨hu, hts⟩ := List.forall_mem_cons.1 hts
    simp only [List.map_cons, first.unplaced ht, second.unplaced hu, ih hts]

/-- **A source has the same tokens with carriage returns**, or the same error. -/
theorem Source.sameCut_withReturns {src : Source} (h : '\r' ∉ src.chars) :
    SameCut src.tokens? src.withReturns.tokens? := by
  obtain ⟨out, hcut⟩ := src.exists_tokenizes
  obtain ⟨out', hcut', hsame⟩ := hcut.exists_withReturns h ⟨rfl, rfl⟩
  rw [← chars_withReturns] at hcut'
  rw [tokens?_of_tokenizes hcut, tokens?_of_tokenizes hcut']
  cases hsame with
  | ok tokens => exact .ok (tokens.concat (Token.same_endOfInput src.beside_stop) nofun)
  | error same => exact .error same

end Curly
