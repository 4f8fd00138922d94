import Curly.Proofs.Layout.Depth
import Curly.Proofs.Token.LineCut

/-!
# Tokens apart from their places

The kinds and texts of tokens do not depend on where a text stands (`Tokenizes.exists_at`), nor on
how its lines end: with every line ended by a line feed alone, a text has the tokens that it had,
and at most line ends after them (`Tokenizes.exists_relined`). Blanks in front of a text are
tokens of their own (`Tokenizes.exists_blanks`).
-/

namespace Curly

variable {p : Position} {text line rest blanks lexeme : List Char} {t : Token} {ts : List Token}
  {kind : Token.Kind}

/-- The token wherever it stands. -/
def Token.unplaced (t : Token) : Token := t.move fun _ => .origin

/-- **A text has the same tokens at any place.** -/
theorem Tokenizes.exists_at (h : Tokenizes p text (.ok ts)) (q : Position) :
    ∃ us, Tokenizes q text (.ok us) ∧ us.map Token.unplaced = ts.map Token.unplaced := by
  induction ts generalizing p q text with
  | nil =>
    obtain rfl := h.text_eq_nil
    exact ⟨[], .done q, rfl⟩
  | cons t ts ih =>
    obtain ⟨lexeme, rest, rfl, reads, later⟩ := h.exists_cons
    cases reads with
    | token isLongest =>
      obtain ⟨us, hus, hsame⟩ := ih later (q.after lexeme)
      refine ⟨_, .token (.token isLongest) hus, ?_⟩
      rw [List.map_cons, List.map_cons, hsame]
      rfl

/-! ## Blanks -/

/-- A lexeme that begins with a blank is one of those that are always spelled the same, and all of
it is blank. -/
theorem Lexeme.of_isBlank {c : Char} {cs : List Char} (h : Lexeme (c :: cs) (.ok kind))
    (hc : Text.isBlank c) : (kind = .spacing ∨ kind = .newline) ∧ Text.allBlank (c :: cs) := by
  have hc' : c ∉ ['#', '\'', '"', '.'] := by
    simp only [List.mem_cons, List.not_mem_nil, or_false]
    rintro (rfl | rfl | rfl | rfl) <;> exact absurd hc (by decide)
  have hword : Scanner.isWordChar c = false := by
    refine Bool.eq_false_iff.2 fun h => ?_
    rw [Layout.isBlank_of_isWordChar h] at hc
    cases hc
  have all : ∀ x ∈ fixedLexemes, x.1.head?.any Text.isBlank →
      (x.2 = .spacing ∨ x.2 = .newline) ∧ Text.allBlank x.1 := by decide
  exact all _ (h.mem_fixedLexemes_of_head hc' hword) hc

/-- Blanks that a text starts with end before the first character that is none. -/
theorem Text.exists_blanks_of_append {more : List Char} (h : blanks ++ rest = lexeme ++ more)
    (hlexeme : Text.allBlank lexeme) (hrest : ∀ c ∈ rest.head?, Text.isBlank c = false) :
    ∃ blanks', blanks = lexeme ++ blanks' ∧ more = blanks' ++ rest := by
  rcases List.append_eq_append_iff.1 h with ⟨more', hmore', rfl⟩ | hinside
  · rcases more' with _ | ⟨c, more'⟩
    · exact ⟨[], by rw [hmore', List.append_nil, List.append_nil], rfl⟩
    · have hc : Text.isBlank c := List.all_eq_true.1 hlexeme c (by rw [hmore']; simp)
      rw [hrest c rfl] at hc
      cases hc
  · exact hinside

/-- **Blanks in front of a text are tokens of their own.** -/
theorem Tokenizes.exists_blanks (h : Tokenizes p (blanks ++ rest) (.ok ts))
    (hblanks : Text.allBlank blanks) (hrest : ∀ c ∈ rest.head?, Text.isBlank c = false) :
    ∃ us vs, ts = us ++ vs ∧ (∀ u ∈ us, u.kind = .spacing ∨ u.kind = .newline) ∧
      Tokenizes (p.after blanks) rest (.ok vs) := by
  induction ts generalizing p blanks with
  | nil =>
    obtain ⟨rfl, rfl⟩ := List.append_eq_nil_iff.1 h.text_eq_nil
    exact ⟨[], [], rfl, nofun, .done p⟩
  | cons t ts ih =>
    rcases blanks with _ | ⟨c, blanks⟩
    · exact ⟨[], t :: ts, rfl, nofun, h⟩
    obtain ⟨lexeme, more, htext, reads, later⟩ := h.exists_cons
    obtain ⟨hc, -⟩ := List.forall_mem_cons.1 (List.all_eq_true.1 hblanks)
    cases reads with
    | @token _ kind isLongest =>
      obtain ⟨d, lexeme, rfl⟩ := List.exists_cons_of_ne_nil isLongest.isLexeme.ne_nil
      obtain rfl : c = d := (List.cons.inj htext).1
      obtain ⟨hkind, hlexeme⟩ := isLongest.isLexeme.of_isBlank hc
      obtain ⟨blanks', hall, hmore⟩ := Text.exists_blanks_of_append htext hlexeme hrest
      subst hmore
      rw [hall] at hblanks ⊢
      rw [Text.allBlank, List.all_append, Bool.and_eq_true] at hblanks
      obtain ⟨us, vs, rfl, hus, hvs⟩ := ih later hblanks.2
      rw [← Position.after_append] at hvs
      exact ⟨_ :: us, vs, rfl, List.forall_mem_cons.2 ⟨hkind, hus⟩, hvs⟩

/-! ## Line ends -/

/-- Only a comment ends in a carriage return. -/
theorem Lexeme.exists_comment_of_return (h : Lexeme (text ++ ['\r']) (.ok kind)) :
    kind = .comment ∧ ∃ body, text = '#' :: body ∧ '\n' ∉ body := by
  have hlast : (text ++ ['\r']).getLast? = some '\r' := by simp
  have hmem : '\r' ∈ text ++ ['\r'] := by simp
  generalize hlexeme : text ++ ['\r'] = lexeme at h hlast hmem
  cases h with
  | fixed listed =>
    have all : ∀ x ∈ fixedLexemes, x.1.getLast? ≠ some '\r' := by decide
    exact absurd hlast (all _ listed)
  | @comment body oneLine =>
    rcases text with _ | ⟨c, text⟩
    · cases hlexeme
    · obtain ⟨rfl, rfl⟩ := List.cons.inj hlexeme
      exact ⟨rfl, text, rfl, fun hn => oneLine (List.mem_append_left _ hn)⟩
  | string | template =>
    rw [List.getLast?_cons, List.getLast?_append] at hlast
    cases hlast
  | word isWord => exact absurd (isWord.forall_mem _ hmem) (by decide)
  | integer isRun | float isRun => exact absurd (isRun.forall_mem _ hmem) (by decide)

/-- A comment says the same without a carriage return at its end. -/
theorem Text.trim_append_return (body : List Char) :
    Text.trim ('#' :: body ++ ['\r']) = Text.trim ('#' :: body) := by
  have hstart : ∀ cs, Text.trimStart ('#' :: cs) = '#' :: cs := fun cs => rfl
  rw [List.cons_append, Text.trim, Text.trim, hstart, hstart, Text.trimEnd, ← List.cons_append,
    List.reverse_append]
  rfl

/-- **A text without the carriage return at its end** has the same tokens. -/
theorem Tokenizes.exists_dropReturn (h : Tokenizes p (text ++ ['\r']) (.ok ts)) :
    ∃ us, Tokenizes p text (.ok us) ∧ us.map Token.unplaced = ts.map Token.unplaced := by
  induction ts generalizing p text with
  | nil =>
    exact absurd (List.append_eq_nil_iff.1 h.text_eq_nil).2 (List.cons_ne_nil _ _)
  | cons t ts ih =>
    obtain ⟨lexeme, rest, htext, reads, later⟩ := h.exists_cons
    cases reads with
    | @token _ kind isLongest =>
      rcases List.eq_nil_or_concat rest with rfl | ⟨rest, c, rfl⟩
      · rw [List.append_nil] at htext isLongest
        subst htext
        obtain ⟨rfl, body, rfl, hbody⟩ := isLongest.isLexeme.exists_comment_of_return
        obtain rfl := later.eq_nil
        have hshort : Longest ('#' :: body) ('#' :: body) (.ok .comment) :=
          ⟨.comment hbody, List.prefix_rfl, fun l _ _ hl => hl.length_le⟩
        refine ⟨_, hshort.tokenizes p, ?_⟩
        have hliteral := congrArg String.ofList (Text.trim_append_return body)
        simp only [List.map_cons, List.map_nil, List.cons.injEq, and_true]
        exact congrArg (fun literal => Token.mk .comment (some literal) _) hliteral.symm
      · rw [List.concat_eq_append, ← List.append_assoc] at htext
        obtain ⟨rfl, hc⟩ := List.append_inj' htext rfl
        obtain rfl : '\r' = c := List.singleton_inj.1 hc
        rw [List.concat_eq_append] at later
        obtain ⟨us, hus, hsame⟩ := ih later
        rw [List.concat_eq_append, ← List.append_assoc] at isLongest
        have hreads := Reads.token (p := p) (isLongest.of_append (List.prefix_append lexeme rest))
        refine ⟨_, .token hreads hus, ?_⟩
        rw [List.map_cons, List.map_cons, hsame]

/-! ## Lines -/

namespace Text

/-- A line feed after every line of a text, and no carriage return before it. -/
def relined (cs : List Char) : List Char := (lines cs).flatMap (· ++ ['\n'])

theorem lines_cons (h : '\n' ∉ line) (rest : List Char) :
    lines (line ++ '\n' :: rest) = dropEnd '\r' line :: lines rest := by
  have hne := pieces_ne_nil '\n' rest
  rw [lines, linesBy, pieces_append, pieces_of_not_mem h, List.singleton_append,
    List.dropLast_cons_of_ne_nil hne, List.getLast?_cons_of_ne_nil hne]
  rfl

theorem lines_of_not_mem (h : '\n' ∉ line) (hne : line ≠ []) : lines line = [line] := by
  have hfull : line.isEmpty = false := List.isEmpty_eq_false_iff.2 hne
  rw [lines, linesBy, pieces_of_not_mem h]
  simp [hfull]

theorem relined_cons (h : '\n' ∉ line) (rest : List Char) :
    relined (line ++ '\n' :: rest) = dropEnd '\r' line ++ '\n' :: relined rest := by
  rw [relined, lines_cons h, List.flatMap_cons, List.append_assoc]
  rfl

theorem relined_of_not_mem (h : '\n' ∉ line) (hne : line ≠ []) :
    relined line = line ++ ['\n'] := by
  rw [relined, lines_of_not_mem h hne, List.flatMap_singleton]

end Text

theorem Lexeme.of_newline (h : Lexeme lexeme (.ok .newline)) :
    lexeme = ['\n'] ∨ lexeme = ['\r', '\n'] := by
  have all : ∀ x ∈ fixedLexemes, x.2 = .newline → x.1 = ['\n'] ∨ x.1 = ['\r', '\n'] := by decide
  exact all _ (h.mem_fixedLexemes_of_kind (by decide)) rfl

/-- A line has the same tokens without its end, be that a line feed or one after a carriage
return. -/
theorem Tokenizes.exists_dropEnd (h : Tokenizes p (line ++ ['\n']) (.ok (ts ++ [t])))
    (ht : t.kind = .newline) :
    t.unplaced = (Piece.newline.token p).unplaced ∧ ∃ us,
      Tokenizes p (Text.dropEnd '\r' line) (.ok us) ∧
        us.map Token.unplaced = ts.map Token.unplaced := by
  obtain ⟨front, back, hsplit, hfront, hback⟩ := h.exists_split
  cases hback.reads_of_singleton with
  | @token _ kind isLongest =>
    obtain rfl : kind = .newline := ht
    refine ⟨rfl, ?_⟩
    rcases isLongest.isLexeme.of_newline with rfl | rfl
    · obtain ⟨rfl, -⟩ := List.append_inj' hsplit rfl
      rw [Text.dropEnd]
      split
      next hreturn =>
        obtain ⟨text, rfl⟩ := List.getLast?_eq_some_iff.1 hreturn
        rw [List.dropLast_concat]
        exact hfront.exists_dropReturn
      next => exact ⟨ts, hfront, rfl⟩
    · rw [List.append_cons front] at hsplit
      obtain ⟨rfl, -⟩ := List.append_inj' hsplit rfl
      rw [Text.dropEnd, List.getLast?_concat, if_pos rfl, List.dropLast_concat]
      exact ⟨ts, hfront, rfl⟩

/-- **The first line of a text** has tokens that do not depend on how it ends, and the line end is
one more. -/
theorem Tokenizes.exists_firstLine (h : Tokenizes p (line ++ '\n' :: rest) (.ok ts))
    (htemplate : ∀ t ∈ ts, t.kind ≠ .template) :
    ∃ us vs, Tokenizes p (Text.dropEnd '\r' line) (.ok us) ∧
      Tokenizes (p.after (line ++ ['\n'])) rest (.ok vs) ∧ (∀ t ∈ vs, t.kind ≠ .template) ∧
      ts.map Token.unplaced =
        us.map Token.unplaced ++ (Piece.newline.token p).unplaced :: vs.map Token.unplaced := by
  rw [← List.singleton_append, ← List.append_assoc] at h
  have hline : ∀ c ∈ (line ++ ['\n']).getLast?, c = '\n' := by
    intro c hc
    rw [List.getLast?_concat] at hc
    exact (Option.some.inj hc).symm
  obtain ⟨upTo, vs, rfl, hupTo, hvs, hends⟩ := h.exists_lineCut hline htemplate
  obtain rfl | ⟨ts, t, rfl⟩ := List.eq_nil_or_concat upTo
  · exact absurd (List.append_eq_nil_iff.1 hupTo.text_eq_nil).2 (List.cons_ne_nil _ _)
  rw [List.concat_eq_append] at hupTo hends htemplate ⊢
  obtain ⟨ht, us, hus, hsame⟩ := hupTo.exists_dropEnd (hends t (by rw [List.getLast?_concat]; rfl))
  refine ⟨us, vs, hus, hvs, fun u hu => htemplate u (List.mem_append_right _ hu), ?_⟩
  rw [hsame, ← ht]
  simp only [List.map_append, List.map_cons, List.append_assoc, List.singleton_append]

/-- **A text with a line feed after every line** has the tokens that it had, and at most line ends
after them. -/
theorem Tokenizes.exists_relined {p : Position} {text : List Char} {ts : List Token}
    (h : Tokenizes p text (.ok ts)) (htemplate : ∀ t ∈ ts, t.kind ≠ .template) (q : Position) :
    ∃ us tail, Tokenizes q (Text.relined text) (.ok (us ++ tail)) ∧
      us.map Token.unplaced = ts.map Token.unplaced ∧ ∀ t ∈ tail, t.kind = .newline := by
  by_cases hmem : '\n' ∈ text
  · obtain ⟨line, rest, rfl, hline⟩ := List.eq_append_cons_of_mem hmem
    obtain ⟨us, vs, hus, hvs, hvtemplate, hsame⟩ := h.exists_firstLine htemplate
    obtain ⟨us', hus', hsame'⟩ := hus.exists_at q
    obtain ⟨ws, tail, hws, hsame'', htail⟩ := exists_relined hvs hvtemplate
      ((q.after (Text.dropEnd '\r' line)).next '\n')
    refine ⟨us' ++ Piece.newline.token (q.after (Text.dropEnd '\r' line)) :: ws, tail, ?_, ?_,
      htail⟩
    · have hcut := hus'.append (.inl rfl) hws.newline
      rw [Text.relined_cons hline]
      simpa [Except.map] using hcut
    · rw [hsame, List.map_append, hsame', List.map_cons, hsame'']
      rfl
  · by_cases hne : text = []
    · subst hne
      obtain rfl := h.eq_nil
      exact ⟨[], [], .done q, rfl, nofun⟩
    · obtain ⟨us, hus, hsame⟩ := h.exists_at q
      have hcut := hus.append (.inl rfl) (Tokenizes.done ((q.after text).next '\n')).newline
      rw [Text.relined_of_not_mem hmem hne]
      exact ⟨us, _, hcut, hsame, List.forall_mem_singleton.2 rfl⟩
  termination_by text.length

end Curly
