import Curly.Proofs.Settings.Document
import Curly.Proofs.Token.Seam
import Curly.Proofs.Tree.Parsing

/-!
# Programs as settings

A text may be read as a program and as settings. Blanks, line ends and comments say nothing in
either, but a declaration begins with a word that another word or a quote comes after, and what a
document says does not (`opening_of_items`). So a program that is read as settings is malformed or
gives none, and then the standard ones hold (`Settings.eq_standard_of_program`).
-/

namespace Curly

open Document Grammar

/-! ## Declarations -/

section Declarations

variable {p : Position} {cs lexeme rest : List Char} {t keyword : Token} {ts gap later : List Token}

theorem Lexeme.isWord_of_kind {kind : Token.Kind} (h : Lexeme lexeme (.ok kind))
    (hkind : kind = .identifier ∨ ∃ k, kind = .keyword k) : IsWord lexeme := by
  cases h with
  | fixed listed => rcases hkind with rfl | ⟨k, rfl⟩ <;> simp [fixedLexemes] at listed
  | word isWord => exact isWord
  | comment | string | template | integer | float => simp at hkind

/-- A word is not cut off before its end. -/
theorem head_of_keyword {k : Keyword} (h : Reads p (lexeme ++ rest) (.ok t) lexeme)
    (ht : t.kind = .keyword k) :
    IsWord lexeme ∧ ∀ c ∈ rest.head?, Scanner.isWordChar c = false := by
  cases h with
  | @token _ kind isLongest =>
    have hword := isLongest.isLexeme.isWord_of_kind (.inr ⟨k, ht⟩)
    refine ⟨hword, fun c hc => Bool.eq_false_iff.2 fun hchar => ?_⟩
    obtain ⟨kind', hkind'⟩ := exists_wordKind (lexeme ++ [c])
    exact Scanner.not_lexeme_of_longest isLongest hc (.word (hword.concat hchar) hkind')

/-- The first character of a name or a string. -/
def BeginsName (c : Char) : Prop := c = '\'' ∨ Scanner.isWordStart c

theorem beginsName_of_reads (h : Reads p (lexeme ++ rest) (.ok t) lexeme)
    (ht : t.kind = .identifier ∨ t.kind = .string) :
    ∃ c ∈ lexeme.head?, BeginsName c := by
  cases h with
  | @token _ kind isLongest =>
    have hlexeme := isLongest.isLexeme
    obtain rfl | rfl : kind = .identifier ∨ kind = .string := ht
    · obtain @⟨c, -, first, -⟩ := hlexeme.isWord_of_kind (.inl rfl)
      exact ⟨c, rfl, .inr first⟩
    · cases hlexeme with
      | fixed listed => simp [fixedLexemes] at listed
      | string => exact ⟨_, rfl, .inl rfl⟩
      | word _ isKind => cases isKind

theorem BeginsName.ne {c e : Char} (h : BeginsName c) (hquote : e ≠ '\'')
    (hstart : Scanner.isWordStart e = false) : c ≠ e := by
  rintro rfl
  rcases h with h | h
  · exact hquote h
  · rw [hstart] at h
    cases h

theorem isSpace_of_beginsName {c : Char} (h : BeginsName c) : isSpace c = false := by
  rw [isSpace, Bool.or_eq_false_iff, beq_eq_false_iff_ne, beq_eq_false_iff_ne]
  exact ⟨h.ne (by decide) (by decide), h.ne (by decide) (by decide)⟩

theorem Reads.exists_comment (h : Reads p (lexeme ++ rest) (.ok t) lexeme)
    (ht : t.kind = .comment) : ∃ body, lexeme = '#' :: body ∧ '\n' ∉ body := by
  cases h with
  | @token _ kind isLongest =>
    obtain rfl : kind = .comment := ht
    exact isLongest.isLexeme.exists_comment

theorem spacing_cases (h : Reads p (lexeme ++ rest) (.ok t) lexeme) (ht : t.kind = .spacing) :
    ∃ c, lexeme = [c] ∧ isSpace c := by
  cases h with
  | @token _ kind isLongest =>
    obtain rfl : kind = .spacing := ht
    have all : ∀ x ∈ fixedLexemes, x.2 = .spacing → x.1 = [' '] ∨ x.1 = ['\t'] := by decide
    obtain rfl | rfl := all _ (isLongest.isLexeme.mem_fixedLexemes_of_kind (by decide)) rfl
    · exact ⟨' ', rfl, by decide⟩
    · exact ⟨'\t', rfl, by decide⟩

theorem newline_cases (h : Reads p (lexeme ++ rest) (.ok t) lexeme) (ht : t.kind = .newline) :
    lexeme = ['\n'] ∨ lexeme = ['\r', '\n'] := by
  cases h with
  | @token _ kind isLongest =>
    obtain rfl : kind = .newline := ht
    have all : ∀ x ∈ fixedLexemes, x.2 = .newline → x.1 = ['\n'] ∨ x.1 = ['\r', '\n'] := by decide
    exact all _ (isLongest.isLexeme.mem_fixedLexemes_of_kind (by decide)) rfl

/-- Spacing before a name or a string is passed over as blanks are. -/
theorem beginsName_of_gap (h : Tokenizes p cs (.ok (gap ++ t :: later))) (hgap : Spaces gap)
    (ht : t.kind = .identifier ∨ t.kind = .string) :
    ∃ c ∈ (cs.dropWhile isSpace).head?, BeginsName c := by
  induction gap generalizing p cs with
  | nil =>
    obtain ⟨lexeme, rest, rfl, reads, -⟩ := h.exists_cons
    obtain ⟨c, hc, hbegins⟩ := beginsName_of_reads reads ht
    obtain ⟨ds, rfl⟩ := List.head?_eq_some_iff.1 hc
    have hspace : Document.isSpace c = false := isSpace_of_beginsName hbegins
    rw [List.cons_append, List.dropWhile_cons_of_neg (by rw [hspace]; decide)]
    exact ⟨c, rfl, hbegins⟩
  | cons u gap ih =>
    obtain ⟨lexeme, rest, rfl, reads, hlater⟩ := h.exists_cons
    obtain ⟨hu, hgap⟩ := List.forall_mem_cons.1 hgap
    obtain ⟨c, rfl, hspace⟩ := spacing_cases reads hu
    rw [List.singleton_append, List.dropWhile_cons_of_pos hspace]
    exact ih hlater hgap

/-- The text says a word first, and then a name or a string. -/
structure OpensWord (cs word rest : List Char) : Prop where
  opens : opening false cs = word ++ rest
  isWord : IsWord word
  stops : ∀ c ∈ rest.head?, Scanner.isWordChar c = false
  next : ∃ c ∈ (rest.dropWhile isSpace).head?, BeginsName c

theorem isKeyChar_eq (c : Char) : isKeyChar c = (Scanner.isWordChar c || c == '-') := rfl

/-- What is silent at the start of a text leaves its first word the same. -/
theorem OpensWord.of_eq {ds word : List Char} (h : OpensWord cs word rest)
    (hsame : opening false ds = opening false cs) : OpensWord ds word rest :=
  ⟨hsame.trans h.opens, h.isWord, h.stops, h.next⟩

/-- **A declaration says a word first**, with a name or a string behind it. -/
theorem opensWord_of_declaration {k : Keyword}
    (h : Tokenizes p cs (.ok (keyword :: (gap ++ t :: later))))
    (hkeyword : keyword.kind = .keyword k) (hgap : Spaces gap)
    (ht : t.kind = .identifier ∨ t.kind = .string) : ∃ word rest, OpensWord cs word rest := by
  obtain ⟨word, rest, rfl, reads, hlater⟩ := h.exists_cons
  obtain ⟨hword, hstop⟩ := head_of_keyword reads hkeyword
  refine ⟨word, rest, ?_, hword, hstop, beginsName_of_gap hlater hgap ht⟩
  obtain ⟨c, word, rfl⟩ := List.exists_cons_of_ne_nil reads.ne_nil
  refine opening_of_isKeyChar ?_
  rw [isKeyChar_eq, hword.forall_mem c List.mem_cons_self, Bool.true_or]

/-! ## Programs -/

/-- Trivia is silent. -/
theorem opening_of_trivia (reads : Reads p (lexeme ++ rest) (.ok t) lexeme)
    (ht : t.kind.isTrivia) : opening false (lexeme ++ rest) = opening false rest := by
  cases hkind : t.kind
  case spacing =>
    obtain ⟨c, rfl, hspace⟩ := spacing_cases reads hkind
    exact opening_blank (by simp [hspace])
  case newline => rcases newline_cases reads hkind with rfl | rfl <;> rfl
  case comment =>
    have hhead := head_of_comment reads hkind
    obtain ⟨body, rfl, hbody⟩ := reads.exists_comment hkind
    rw [List.cons_append, opening_hash, opening_comment hbody]
    cases rest with
    | nil => rfl
    | cons c rest =>
      obtain rfl := hhead c rfl
      rw [opening_lineFeed, opening_lineFeed]
  all_goals
    rw [hkind] at ht
    cases ht

/-- What is said first behind trivia is what is said first. -/
theorem opening_trivia_cons (h : Tokenizes p cs (.ok (t :: ts))) (ht : t.kind.isTrivia)
    (ih : ∀ {p : Position} {cs : List Char}, Tokenizes p cs (.ok ts) →
      opening false cs = [] ∨ ∃ word rest, OpensWord cs word rest) :
    opening false cs = [] ∨ ∃ word rest, OpensWord cs word rest := by
  obtain ⟨lexeme, rest, rfl, reads, hlater⟩ := h.exists_cons
  have hsame := opening_of_trivia reads ht
  rcases ih hlater with hnil | ⟨word, later, hopens⟩
  · exact .inl (hsame.trans hnil)
  · exact .inr ⟨word, later, hopens.of_eq hsame⟩

/-- **What a program says first** is nothing or a word with a name or a string behind it. -/
theorem opening_of_items {nodes : List Node} (hitems : Items ts nodes)
    (h : Tokenizes p cs (.ok ts)) :
    opening false cs = [] ∨ ∃ word rest, OpensWord cs word rest := by
  induction hitems generalizing p cs with
  | nil =>
    obtain rfl := h.text_eq_nil
    exact .inl rfl
  | spacing isSpacing _ ih => exact opening_trivia_cons h (by rw [isSpacing]; rfl) ih
  | newline isNewline _ ih => exact opening_trivia_cons h (by rw [isNewline]; rfl) ih
  | comment isComment _ ih => exact opening_trivia_cons h (by rw [isComment]; rfl) ih
  | use_ isUse =>
    cases isUse with
    | plain isUse isGap isString =>
      rw [List.cons_append, List.append_assoc] at h
      exact .inr (opensWord_of_declaration h isUse isGap (.inr isString))
    | including isUse isGap isString =>
      rw [List.cons_append, List.append_assoc] at h
      exact .inr (opensWord_of_declaration h isUse isGap (.inr isString))
  | enum isEnum =>
    obtain ⟨isEnum, isGap, isName⟩ := isEnum
    rw [List.cons_append, List.append_assoc] at h
    exact .inr (opensWord_of_declaration h isEnum isGap (.inl isName))
  | fn isHead =>
    obtain ⟨isFn, isGap, isName⟩ := isHead
    rw [List.cons_append, List.append_assoc] at h
    exact .inr (opensWord_of_declaration h isFn isGap (.inl isName))

/-- No document says first what a declaration says first. -/
theorem OpensWord.not_read {read : String → Option Settings} {text : String} {word : List Char}
    {s : Settings} (hread : Settings.ReadsDocuments read) (h : OpensWord text.toList word rest) :
    read text ≠ some s := by
  intro hs
  obtain ⟨c, hc, hbegins⟩ := h.next
  have hkeys : ∀ e ∈ word, isKeyChar e := fun e he => by
    rw [isKeyChar_eq, h.isWord.forall_mem e he, Bool.true_or]
  have hstop : ∀ e ∈ rest.head?, isKeyChar e = false := by
    intro e he
    rw [isKeyChar_eq, h.stops e he, Bool.false_or, beq_eq_false_iff_ne]
    rintro rfl
    obtain ⟨es, rfl⟩ := List.head?_eq_some_iff.1 he
    rw [List.dropWhile_cons_of_neg (by decide)] at hc
    exact hbegins.ne (by decide) (by decide) (Option.some.inj hc).symm
  obtain ⟨e, he, hkey⟩ := hread.keyed hs h.opens h.isWord.ne_nil hkeys hstop
  obtain rfl : c = e := Option.some.inj (hc.symm.trans he)
  rcases hkey with rfl | rfl
  · exact hbegins.ne (by decide) (by decide) rfl
  · exact hbegins.ne (by decide) (by decide) rfl

end Declarations

/-- **A program that is read as settings gives the standard ones.** -/
theorem Settings.eq_standard_of_program {read : String → Option Settings} {name text : String}
    {p : Program} {s : Settings} (hread : ReadsDocuments read)
    (h : (Source.mk name text).parse = .ok p) (hs : parseWith read text = .ok s) :
    s = .standard := by
  obtain ⟨ts, hcut, -, -, hitems⟩ := Source.exists_items_of_parse h
  obtain ⟨given, hgiven, hchecked⟩ := exists_of_parseWith hs
  rcases opening_of_items hitems hcut with hsilent | ⟨word, rest, hopens⟩
  · obtain rfl := hread.silent hgiven hsilent
    exact (Except.ok.inj hchecked).symm
  · exact absurd hgiven (hopens.not_read hread)

end Curly
