import Curly.Proofs.Token.Piece
import Curly.Proofs.Token.Sequence
import Curly.Proofs.Tree.Move

/-!
# Cutting and joining texts

Where a text is cut between two of its tokens, both parts keep their tokens
(`Tokenizes.exists_split`). Where a text with tokens is followed by a line end, or by a blank that
does not go into a comment at its end, its tokens stay and those of the rest come after them
(`Tokenizes.append`). A text that stands elsewhere has the same tokens and errors at other places
(`Tokenizes.shift`).
-/

namespace Curly

variable {p : Position} {text lexeme before rest : List Char} {c : Char} {t : Token}
  {ts us : List Token} {kind : Token.Kind} {out : Except LexicalError (List Token)}

/-! ## Blanks inside lexemes -/

/-- A blank ends every token that it comes after, but for a comment on the same line. -/
def Seals (c : Char) (atComment : Prop) : Prop := c = '\n' ∨ c = ' ' ∧ ¬ atComment

theorem not_isWordChar_blank (hc : c = '\n' ∨ c = ' ') : Scanner.isWordChar c = false := by
  rcases hc with rfl | rfl <;> decide

theorem NumberRun.forall_mem {run : List Char} (h : NumberRun run) :
    ∀ c ∈ run, Scanner.isDigit c ∨ c = '.' := by
  cases h with
  | digit first more => exact List.forall_mem_cons.2 ⟨.inl first, more⟩
  | dot first more =>
    exact List.forall_mem_cons.2 ⟨.inr rfl, List.forall_mem_cons.2 ⟨.inl first, more⟩⟩

theorem IsWord.ne_nil {cs : List Char} (h : IsWord cs) : cs ≠ [] := by
  cases h
  exact List.cons_ne_nil _ _

theorem IsWord.forall_mem {cs : List Char} (h : IsWord cs) :
    ∀ c ∈ cs, Scanner.isWordChar c := by
  cases h with
  | intro first more =>
    exact List.forall_mem_cons.2 ⟨Scanner.isWordChar_of_isWordStart first, more⟩

/-- A quoted text that starts another one is all of it. -/
theorem not_mem_of_quoted {q : Char} {body tail cs : List Char}
    (h : cs ++ c :: tail = body ++ [q]) (hq : q ∈ cs) : q ∈ body := by
  have hfront : cs <+: body := by
    refine List.prefix_of_prefix_length_le ⟨c :: tail, h⟩ (List.prefix_append body [q]) ?_
    have hlength := congrArg List.length h
    simp only [List.length_append, List.length_cons, List.length_nil] at hlength
    omega
  exact hfront.subset hq

/-- A lexeme that starts with a quote ends with it. -/
theorem Lexeme.mem_quote {q : Char} {cs : List Char} {r : Except LexicalError.Cause Token.Kind}
    (h : Lexeme (q :: cs) r) (hq : q = '\'' ∨ q = '"') : q ∈ cs := by
  generalize hlexeme : q :: cs = lexeme at h
  cases h with
  | fixed listed =>
    have all : ∀ x ∈ fixedLexemes, x.1.head? ≠ some '\'' ∧ x.1.head? ≠ some '"' := by decide
    obtain ⟨h1, h2⟩ := all _ listed
    rw [← hlexeme] at h1 h2
    rcases hq with rfl | rfl
    · exact absurd rfl h1
    · exact absurd rfl h2
  | comment =>
    cases hlexeme
    rcases hq with hq | hq <;> cases hq
  | string | template =>
    cases hlexeme
    simp
  | word isWord =>
    have hword := isWord.forall_mem q (hlexeme ▸ List.mem_cons_self)
    rcases hq with rfl | rfl <;> exact absurd hword (by decide)
  | integer isRun | float isRun | malformed isRun =>
    have hrun := isRun.forall_mem q (hlexeme ▸ List.mem_cons_self)
    rcases hq with rfl | rfl <;> exact absurd hrun (by decide)

/-- A carriage return begins a line end of two characters and nothing else. -/
theorem Lexeme.eq_of_return {cs : List Char} {r : Except LexicalError.Cause Token.Kind}
    (h : Lexeme ('\r' :: cs) r) : cs = ['\n'] := by
  generalize hlexeme : '\r' :: cs = lexeme at h
  cases h with
  | fixed listed =>
    have all : ∀ x ∈ fixedLexemes, x.1.head? = some '\r' → x.1.tail = ['\n'] := by decide
    have htail := all _ listed (by rw [← hlexeme]; rfl)
    rwa [← hlexeme] at htail
  | comment | string | template => cases hlexeme
  | word isWord =>
    exact absurd (isWord.forall_mem '\r' (hlexeme ▸ List.mem_cons_self)) (by decide)
  | integer isRun | float isRun | malformed isRun =>
    exact absurd (isRun.forall_mem '\r' (hlexeme ▸ List.mem_cons_self)) (by decide)

/-- **No lexeme goes on through a blank** after a text that starts with a token, unless the text
is a comment. -/
theorem not_lexeme_through_blank {tail : List Char} {r : Except LexicalError.Cause Token.Kind}
    (h : Longest text lexeme (.ok kind))
    (hc : Seals c (kind = .comment ∧ lexeme = text)) : ¬ Lexeme (text ++ c :: tail) r := by
  have hblank : c = '\n' ∨ c = ' ' := hc.imp_right And.left
  obtain ⟨d, lexeme', rfl⟩ := List.exists_cons_of_ne_nil h.isLexeme.ne_nil
  obtain ⟨text', rfl⟩ : ∃ text', text = d :: text' := by
    obtain ⟨rest, rfl⟩ := h.isStart
    exact ⟨_, List.cons_append⟩
  have hmem : c ∈ d :: text' ++ c :: tail := by simp
  intro hlex
  generalize hl : d :: text' ++ c :: tail = l at hlex hmem
  cases hlex with
  | fixed listed =>
    have all : ∀ x ∈ fixedLexemes,
        x.1 = ['\r', '\n'] ∨ '\n' ∉ x.1.tail ∧ ' ' ∉ x.1.tail := by decide
    have htail : c ∈ l.tail := by
      rw [← hl]
      simp
    rcases all _ listed with hreturn | ⟨hn, hspace⟩
    · obtain ⟨rfl, hl'⟩ := List.cons.inj (hl.trans hreturn)
      obtain ⟨rest, hrest⟩ := h.isStart
      rw [h.isLexeme.eq_of_return] at hrest
      rw [← (List.cons.inj hrest).2] at hl'
      simp at hl'
    · rcases hblank with rfl | rfl
      · exact hn htail
      · exact hspace htail
  | @comment body oneLine =>
    obtain ⟨rfl, rfl⟩ := List.cons.inj hl
    have hshort : Lexeme ('#' :: text') (.ok .comment) := .comment fun hn => oneLine (by simp [hn])
    have hwhole : '#' :: lexeme' = '#' :: text' :=
      h.isStart.eq_of_length_le (h.longest _ _ hshort List.prefix_rfl)
    rw [← hwhole] at hshort
    obtain rfl := Except.ok.inj (Scanner.lexeme_unique h.isLexeme hshort)
    rcases hc with rfl | ⟨-, hc⟩
    · exact oneLine (by simp)
    · exact hc ⟨rfl, hwhole⟩
  | @string body inside =>
    obtain ⟨rfl, hl'⟩ := List.cons.inj hl
    have hquote := (List.prefix_cons_inj _ |>.1 h.isStart).subset (h.isLexeme.mem_quote (.inl rfl))
    exact (inside _ (not_mem_of_quoted hl' hquote)).1 rfl
  | @template body inside =>
    obtain ⟨rfl, hl'⟩ := List.cons.inj hl
    have hquote := (List.prefix_cons_inj _ |>.1 h.isStart).subset (h.isLexeme.mem_quote (.inr rfl))
    exact inside (not_mem_of_quoted hl' hquote)
  | word isWord =>
    have hword := isWord.forall_mem c hmem
    rw [not_isWordChar_blank hblank] at hword
    cases hword
  | integer isRun | float isRun | malformed isRun =>
    have hrun := isRun.forall_mem c hmem
    rcases hblank with rfl | rfl <;> exact absurd hrun (by decide)

/-- **A longest lexeme stays the longest** when a line end or a blank comes after the text. -/
theorem Longest.append (h : Longest text lexeme (.ok kind))
    (hc : Seals c (kind = .comment ∧ lexeme = text)) (tail : List Char) :
    Longest (text ++ c :: tail) lexeme (.ok kind) := by
  refine ⟨h.isLexeme, h.isStart.trans (List.prefix_append _ _), fun l r hl hstart => ?_⟩
  by_cases hle : l.length ≤ text.length
  · exact h.longest l r hl (List.prefix_of_prefix_length_le hstart (List.prefix_append _ _) hle)
  · obtain ⟨l', rfl⟩ : text ++ [c] <+: l := by
      refine List.prefix_of_prefix_length_le ⟨tail, by simp⟩ hstart ?_
      rw [List.length_append, List.length_singleton]
      omega
    rw [List.append_assoc, List.singleton_append] at hl
    exact absurd hl (not_lexeme_through_blank h hc)

theorem Reads.append (h : Reads p text (.ok t) lexeme)
    (hc : Seals c (t.kind = .comment ∧ lexeme = text)) (tail : List Char) :
    Reads p (text ++ c :: tail) (.ok t) lexeme := by
  cases h with
  | token isLongest => exact .token (isLongest.append hc tail)

/-! ## Joining and cutting -/

/-- **A text with tokens keeps them** when it goes on with a line end, or with a blank that does
not go into a comment at its end. -/
theorem Tokenizes.append {tail : List Char} (h : Tokenizes p text (.ok ts))
    (hc : Seals c (∃ t ∈ ts.getLast?, t.kind = .comment))
    (hlater : Tokenizes (p.after text) (c :: tail) out) :
    Tokenizes p (text ++ c :: tail) (out.map (ts ++ ·)) := by
  induction ts generalizing p text with
  | nil =>
    obtain rfl := h.text_eq_nil
    cases out <;> exact hlater
  | cons t ts ih =>
    obtain ⟨lexeme, rest, rfl, reads, later⟩ := h.exists_cons
    have hseals : Seals c (t.kind = .comment ∧ lexeme = lexeme ++ rest) := by
      refine hc.imp_right (And.imp_right fun hlast hcomment => hlast ?_)
      obtain ⟨ht, hrest⟩ := hcomment
      obtain rfl : rest = [] := by simpa using hrest
      obtain rfl := later.eq_nil
      exact ⟨t, rfl, ht⟩
    have hseals' : Seals c (∃ t ∈ ts.getLast?, t.kind = .comment) := by
      refine hc.imp_right (And.imp_right fun hlast => ?_)
      rintro ⟨u, hu, hkind⟩
      refine hlast ⟨u, ?_, hkind⟩
      rw [List.getLast?_cons, Option.mem_def.1 hu]
      rfl
    rw [Position.after_append] at hlater
    have hreads := reads.append hseals tail
    rw [List.append_assoc] at hreads ⊢
    have htoken := Tokenizes.token hreads (ih later hseals' hlater)
    have hout : (out.map (ts ++ ·)).map (t :: ·) = out.map (t :: ts ++ ·) := by cases out <;> rfl
    rwa [hout] at htoken

theorem Longest.of_append {r : Except LexicalError.Cause Token.Kind}
    (h : Longest (text ++ rest) lexeme r) (hstart : lexeme <+: text) : Longest text lexeme r :=
  ⟨h.isLexeme, hstart, fun l r hl hl' => h.longest l r hl (hl'.trans (List.prefix_append _ _))⟩

/-- **A text is cut between any two of its tokens**, and both parts keep theirs. -/
theorem Tokenizes.exists_split (h : Tokenizes p text (.ok (ts ++ us))) :
    ∃ front back, text = front ++ back ∧ Tokenizes p front (.ok ts) ∧
      Tokenizes (p.after front) back (.ok us) := by
  induction ts generalizing p text with
  | nil => exact ⟨[], text, rfl, .done p, h⟩
  | cons t ts ih =>
    obtain ⟨lexeme, rest, rfl, reads, later⟩ := h.exists_cons
    obtain ⟨front, back, rfl, hfront, hback⟩ := ih later
    refine ⟨lexeme ++ front, back, (List.append_assoc _ _ _).symm, ?_, ?_⟩
    · cases reads with
      | token isLongest =>
        rw [← List.append_assoc] at isLongest
        exact .token (.token (isLongest.of_append (List.prefix_append _ _))) hfront
    · rw [Position.after_append]
      exact hback

/-- What is before a token of a text, and what goes up to its end. -/
theorem Tokenizes.exists_token (h : Tokenizes p text (.ok (ts ++ t :: us))) :
    ∃ front lexeme rest, text = front ++ (lexeme ++ rest) ∧ lexeme ≠ [] ∧
      t.span = ⟨p.after front, p.after (front ++ lexeme)⟩ ∧ Tokenizes p front (.ok ts) ∧
      Tokenizes p (front ++ lexeme) (.ok (ts ++ [t])) := by
  rw [List.append_cons] at h
  obtain ⟨upTo, rest, rfl, hupTo, -⟩ := h.exists_split
  obtain ⟨front, lexeme, rfl, hfront, hlexeme⟩ := hupTo.exists_split
  have reads := hlexeme.reads_of_singleton
  refine ⟨front, lexeme, rest, List.append_assoc _ _ _, reads.ne_nil, ?_, hfront, hupTo⟩
  cases reads with
  | token => rw [Token.ofLexeme_span, Position.after_append]

/-! ## Pieces -/

/-- A piece that stands is the longest lexeme where it is. -/
theorem Piece.StandsBefore.reads {x : Piece} (h : x.StandsBefore rest) (hne : x.lexeme ≠ [])
    (p : Position) : Reads p (x.lexeme ++ rest) (.ok (x.token p)) x.lexeme := by
  obtain ⟨r, lexeme, hreads⟩ := exists_reads p (List.append_ne_nil_of_left_ne_nil hne rest)
  obtain ⟨rest', hrest⟩ := hreads.isStart
  have hnext := Scanner.next_of_reads (s := ⟨p, [], x.lexeme ++ rest⟩) hreads hrest.symm
  rw [h ⟨p, [], x.lexeme ++ rest⟩ rfl] at hnext
  simp only [Prod.mk.injEq, Option.some.injEq, Scanner.mk.injEq] at hnext
  obtain ⟨rfl, -, rfl, -⟩ := hnext
  exact hreads

/-- A text is cut into the pieces that it is put together from, if they stand. -/
theorem Piece.tokenizes_of_stand {xs : List Piece} (h : Stand [] xs) (p : Position) :
    Tokenizes p (spell xs) (.ok (place p xs)) := by
  have hcut := Scanner.tokenizes_collect ⟨p, [], spell xs⟩
  rwa [collect_of_stand h _ rfl] at hcut

/-- A line end is cut off by itself. -/
theorem Tokenizes.newline (h : Tokenizes (p.next '\n') rest out) :
    Tokenizes p ('\n' :: rest) (out.map (Piece.newline.token p :: ·)) :=
  .token (Piece.standsBefore_newline.reads (List.cons_ne_nil _ _) p) h

/-! ## Texts that stand elsewhere -/

section Shift

variable (lines bytes : Nat)

theorem Position.shift_after (p : Position) (cs : List Char) :
    (p.shift lines bytes).after cs = (p.after cs).shift lines bytes := by
  induction cs generalizing p with
  | nil => rfl
  | cons c cs ih =>
    have hnext : (p.shift lines bytes).next c = (p.next c).shift lines bytes := by
      unfold Position.next Position.shift
      split <;> simp only [Position.mk.injEq, true_and] <;> omega
    rw [Position.after_cons, hnext, ih, Position.after_cons]

theorem Span.shift_after (p : Position) (cs : List Char) :
    (⟨p.shift lines bytes, (p.shift lines bytes).after cs⟩ : Span) =
      Span.move (.shift lines bytes) ⟨p, p.after cs⟩ := by
  rw [Position.shift_after]
  rfl

/-- What is cut off at another place. -/
def shifted {α : Type} (move : α → α) (r : Except LexicalError α) : Except LexicalError α :=
  (r.map move).mapError (LexicalError.move (.shift lines bytes))

theorem Reads.shift {r : Except LexicalError Token} (h : Reads p text r lexeme) :
    Reads (p.shift lines bytes) text
      (shifted lines bytes (Token.move (.shift lines bytes)) r) lexeme := by
  cases h with
  | @token _ kind isLongest =>
    have htoken : (Token.ofLexeme p kind lexeme).move (.shift lines bytes) =
        .ofLexeme (p.shift lines bytes) kind lexeme := by
      rw [Token.ofLexeme, Token.ofLexeme, Span.shift_after]
      rfl
    show Reads _ _ (.ok ((Token.ofLexeme p kind lexeme).move (.shift lines bytes))) _
    rw [htoken]
    exact .token isLongest
  | malformed isLongest =>
    have hread := Reads.malformed (p := p.shift lines bytes) isLongest
    rwa [Span.shift_after] at hread
  | openString noLexeme split inside stop =>
    have hread := Reads.openString (p := p.shift lines bytes) noLexeme split inside stop
    rwa [Span.shift_after] at hread
  | openTemplate noLexeme split inside =>
    have hread := Reads.openTemplate (p := p.shift lines bytes) noLexeme split inside
    rwa [Span.shift_after] at hread
  | unexpected noLexeme split notQuote notDoubleQuote =>
    exact .unexpected noLexeme split notQuote notDoubleQuote

/-- **A text that stands elsewhere** has the same tokens and the same error, at other places. -/
theorem Tokenizes.shift (h : Tokenizes p text out) :
    Tokenizes (p.shift lines bytes) text
      (shifted lines bytes (List.map (Token.move (.shift lines bytes))) out) := by
  induction h with
  | done p => exact .done _
  | @token p lexeme rest t out reads later ih =>
    rw [← Position.shift_after] at ih
    have htoken := Tokenizes.token (reads.shift lines bytes) ih
    cases out <;> exact htoken
  | fault reads => exact .fault (reads.shift lines bytes)

end Shift

end Curly
