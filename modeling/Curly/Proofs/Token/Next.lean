import Curly.Proofs.Token.Lexeme

/-!
# One call of the scanner

What `Scanner.next` reads, in the words of the lexical grammar. Where the rest of the text starts
with a lexeme, the call takes the longest (`next_of_longest`), and where it starts with none it
gives the error of its first character (`afterFirst_of_noLexeme`). Both are told by `Reads`, which
names the outcome of a call and the characters that it takes (`next_reads`).
-/

namespace Curly

namespace Scanner

/-! ## Reading on -/

theorem takeWhile_append_stop {p : Char → Bool} {cs rest : List Char} (hcs : ∀ c ∈ cs, p c)
    (hrest : ∀ c ∈ rest.head?, p c = false) : (cs ++ rest).takeWhile p = cs := by
  rw [List.takeWhile_append_of_pos hcs]
  cases rest with
  | nil => simp
  | cons c rest => simp [hrest c rfl]

theorem dropWhile_append_stop {p : Char → Bool} {cs rest : List Char} (hcs : ∀ c ∈ cs, p c)
    (hrest : ∀ c ∈ rest.head?, p c = false) : (cs ++ rest).dropWhile p = rest := by
  rw [List.dropWhile_append_of_pos hcs]
  cases rest with
  | nil => simp
  | cons c rest => simp [hrest c rfl]

/-- The scanner reads `cs` and stops before `rest`. -/
theorem readWhile_append {p : Char → Bool} (q : Position) (lex cs rest : List Char)
    (hcs : ∀ c ∈ cs, p c) (hrest : ∀ c ∈ rest.head?, p c = false) :
    (⟨q, lex, cs ++ rest⟩ : Scanner).readWhile p = ⟨q, lex ++ cs, rest⟩ := by
  rw [readWhile, takeWhile_append_stop hcs hrest, dropWhile_append_stop hcs hrest]

theorem next_of_rest {s : Scanner} {c : Char} {cs : List Char} (h : s.rest = c :: cs) :
    s.next = (some ((⟨s.here, [c], cs⟩ : Scanner).afterFirst c).1,
      ((⟨s.here, [c], cs⟩ : Scanner).afterFirst c).2) := by
  unfold next
  split
  · next hnil => rw [h] at hnil; cases hnil
  · next d ds hcons =>
    obtain ⟨rfl, rfl⟩ : c = d ∧ cs = ds := by rw [h] at hcons; simpa using hcons
    simp [mark, advance, h]

/-! ## The branches after a first character -/

section AfterFirst

variable {c : Char} {s : Scanner}

theorem afterFirst_of_punctuation {kind : Token.Kind} (h : punctuation? c = some kind) :
    s.afterFirst c = s.accept kind := by
  unfold afterFirst
  rw [h]

theorem afterFirst_of_pair {kind : Token.Kind} (hc : punctuation? c = none)
    (h : pair? c s.peek? = some kind) : s.afterFirst c = s.advance.accept kind := by
  unfold afterFirst
  rw [hc, h]

theorem isWordChar_ne {d : Char} (h : isWordChar c) (hd : isWordChar d = false) : c ≠ d := by
  rintro rfl
  rw [h] at hd
  cases hd

theorem punctuation?_of_isWordChar (h : isWordChar c) : punctuation? c = none := by
  unfold punctuation?
  split <;> first | rfl | exact absurd h (by decide)

theorem pair?_of_isWordChar (h : isWordChar c) (next : Option Char) : pair? c next = none := by
  unfold pair?
  split <;> first | rfl | exact absurd h (by decide)

theorem not_mem_operatorChars (h : isWordChar c) : isOperatorChar c = false := by
  rw [isOperatorChar, List.contains_eq_mem, decide_eq_false_iff_not]
  intro hmem
  have all : operatorChars.all (fun d => !isWordChar d) = true := by decide
  have hnot := List.all_eq_true.1 all c hmem
  rw [h] at hnot
  cases hnot

/-- A letter, a digit or an underscore begins a word or a number. -/
theorem afterFirst_of_isWordChar (h : isWordChar c) :
    s.afterFirst c =
      if isWordStart c then s.word
      else if isDigit c then s.number
      else (.error ⟨.unexpectedChar c, Span.point s.start⟩, s) := by
  unfold afterFirst
  rw [punctuation?_of_isWordChar h, pair?_of_isWordChar h]
  simp [isWordChar_ne h (show isWordChar '\r' = false from rfl),
    isWordChar_ne h (show isWordChar '#' = false from rfl),
    isWordChar_ne h (show isWordChar '.' = false from rfl),
    isWordChar_ne h (show isWordChar ':' = false from rfl),
    isWordChar_ne h (show isWordChar '=' = false from rfl),
    isWordChar_ne h (show isWordChar '\'' = false from rfl),
    isWordChar_ne h (show isWordChar '"' = false from rfl), not_mem_operatorChars h]

theorem isWordChar_of_isWordStart (h : isWordStart c) : isWordChar c := by
  simp only [isWordStart, isWordChar, Char.isAlphanum, Bool.or_eq_true] at h ⊢
  tauto

theorem isWordChar_of_isDigit (h : isDigit c) : isWordChar c := by
  simp only [isDigit, isWordChar, Char.isAlphanum, Bool.or_eq_true] at h ⊢
  tauto

/-- The letters by their codes. -/
theorem isAlpha_iff (c : Char) : c.isAlpha ↔
    65 ≤ c.toNat ∧ c.toNat ≤ 90 ∨ 97 ≤ c.toNat ∧ c.toNat ≤ 122 := by
  have hcodes : c.isAlpha = (decide ('A'.val ≤ c.val ∧ c.val ≤ 'Z'.val) ||
      decide ('a'.val ≤ c.val) && decide (c.val ≤ 'z'.val)) := rfl
  simp only [hcodes, Bool.or_eq_true, Bool.and_eq_true, decide_eq_true_eq, UInt32.le_iff_toNat_le]
  exact Iff.rfl

theorem not_isWordStart_of_isDigit (h : isDigit c) : isWordStart c = false := by
  have hne : c ≠ '_' := by rintro rfl; exact absurd h (by decide)
  simp only [isDigit, Char.isDigit, Bool.and_eq_true, decide_eq_true_eq, ge_iff_le,
    UInt32.le_iff_toNat_le] at h
  have hcode : 48 ≤ c.toNat ∧ c.toNat ≤ 57 := h
  rw [isWordStart, Bool.or_eq_false_iff, Bool.eq_false_iff, ne_eq, isAlpha_iff,
    beq_eq_false_iff_ne]
  exact ⟨by omega, hne⟩

end AfterFirst

/-! ## Lexemes that are always spelled the same -/

theorem mem_fixedLexemes_of_punctuation {c : Char} {kind : Token.Kind}
    (h : punctuation? c = some kind) : ([c], kind) ∈ fixedLexemes := by
  unfold punctuation? at h
  split at h <;> cases h <;> decide

theorem mem_fixedLexemes_of_pair {c : Char} {next : Option Char} {kind : Token.Kind}
    (h : pair? c next = some kind) : ∃ d, next = some d ∧ ([c, d], kind) ∈ fixedLexemes := by
  unfold pair? at h
  split at h <;> cases h <;> exact ⟨_, rfl, by decide⟩

/-- How the scanner comes by the fixed lexemes of one and of two characters. -/
def FixedReading : List Char × Token.Kind → Prop
  | ([c], kind) =>
    punctuation? c = some kind ∨ (c = '.' ∧ kind = .dot) ∨ (c = ':' ∧ kind = .colon) ∨
      ((c = '=' ∨ isOperatorChar c) ∧ kind = .operator)
  | ([c, d], kind) =>
    (punctuation? c = none ∧ pair? c (some d) = some kind) ∨
      (c = '\r' ∧ d = '\n' ∧ kind = .newline)
  | _ => False

instance : DecidablePred FixedReading := fun x => by
  unfold FixedReading
  split <;> infer_instance

theorem fixedReading_of_mem : ∀ x ∈ fixedLexemes, FixedReading x := by decide

/-- Only the line end of two characters reads otherwise than it is spelled. -/
theorem literal_of_mem_fixedLexemes :
    ∀ x ∈ fixedLexemes, x.1 = ['\r', '\n'] ∨ x.2.literal x.1 = String.ofList x.1 := by decide

/-! ## The longest lexeme is read -/

variable {s : Scanner} {lex rest : List Char}

theorem accept_eq {kind : Token.Kind} (q : Position) (rest : List Char)
    (h : kind.literal lex = String.ofList lex) :
    (⟨q, lex, rest⟩ : Scanner).accept kind =
      (.ok (Token.ofLexeme q kind lex), ⟨q, lex, rest⟩) := by
  simp [accept, make, token, lexemeText, span, here, Token.ofLexeme, h]

/-- What follows a longest lexeme makes no longer one of it. -/
theorem not_lexeme_of_longest {c : Char} {r r' : Except LexicalError.Cause Token.Kind}
    (h : Longest (lex ++ rest) lex r) (hc : rest.head? = some c) : ¬ Lexeme (lex ++ [c]) r' := by
  intro hlex
  obtain ⟨ds, rfl⟩ : ∃ ds, rest = c :: ds := by
    cases rest with
    | nil => cases hc
    | cons d ds => cases hc; exact ⟨ds, rfl⟩
  have := h.longest _ _ hlex ⟨ds, by simp⟩
  rw [List.length_append, List.length_singleton] at this
  omega

theorem pair?_of_longest {c : Char} {r : Except LexicalError.Cause Token.Kind}
    (h : Longest ([c] ++ rest) [c] r) : pair? c rest.head? = none := by
  cases hp : pair? c rest.head? with
  | none => rfl
  | some kind =>
    obtain ⟨d, hd, hmem⟩ := mem_fixedLexemes_of_pair hp
    exact absurd (Lexeme.fixed hmem) (not_lexeme_of_longest h hd)

theorem isDigit_of_longest_dot {r : Except LexicalError.Cause Token.Kind}
    (h : Longest (['.'] ++ rest) ['.'] r) : rest.head?.any isDigit = false := by
  cases hd : rest.head? with
  | none => rfl
  | some d =>
    by_contra hne
    have hdigit : isDigit d := by simpa using hne
    have hrun : NumberRun (['.'] ++ [d]) := .dot hdigit (by simp)
    obtain ⟨r', hr'⟩ := hrun.lexeme
    exact not_lexeme_of_longest h hd hr'

/-- An operator of one character that no second one joins. -/
theorem afterFirst_of_operator {c : Char} (hc : c = '=' ∨ isOperatorChar c)
    (hp : pair? c s.peek? = none) : s.afterFirst c = s.accept .operator := by
  have hmem : c ∈ '=' :: operatorChars := by
    simpa [isOperatorChar, List.contains_eq_mem] using hc
  have all : ('=' :: operatorChars).all (fun d =>
      punctuation? d = none ∧ d ≠ '\r' ∧ d ≠ '#' ∧ d ≠ '.' ∧ d ≠ ':') = true := by decide
  obtain ⟨hn, hcr, hhash, hdot, hcolon⟩ := of_decide_eq_true (List.all_eq_true.1 all c hmem)
  have hop : (c = '=' || isOperatorChar c) = true := by simpa using hc
  unfold afterFirst
  rw [hn, hp]
  simp only [hcr, hhash, hdot, hcolon, hop, decide_false, Bool.false_and, Bool.false_eq_true,
    if_false, if_true]

theorem next_of_fixed {kind : Token.Kind} (h : Longest s.rest lex (.ok kind))
    (hmem : (lex, kind) ∈ fixedLexemes) (hrest : s.rest = lex ++ rest) :
    s.next = (some (.ok (Token.ofLexeme s.here kind lex)), ⟨s.here, lex, rest⟩) := by
  rw [hrest] at h
  have hread := fixedReading_of_mem _ hmem
  have hlit := literal_of_mem_fixedLexemes _ hmem
  rcases lex with _ | ⟨c, _ | ⟨d, _ | _⟩⟩
  · exact hread.elim
  · rw [next_of_rest (show s.rest = c :: rest from hrest)]
    have hlit : kind.literal [c] = String.ofList [c] := hlit.resolve_left (by simp)
    suffices hs : (⟨s.here, [c], rest⟩ : Scanner).afterFirst c =
        (⟨s.here, [c], rest⟩ : Scanner).accept kind by
      rw [hs, accept_eq _ _ hlit]
    rcases hread with hp | ⟨rfl, rfl⟩ | ⟨rfl, rfl⟩ | ⟨hop, rfl⟩
    · exact afterFirst_of_punctuation hp
    · have hd := isDigit_of_longest_dot h
      simp [afterFirst, punctuation?, pair?, peek?, hd]
    · have hp : pair? ':' (⟨s.here, [':'], rest⟩ : Scanner).peek? = none := pair?_of_longest h
      unfold afterFirst
      rw [hp]
      simp [punctuation?]
    · exact afterFirst_of_operator hop (pair?_of_longest h)
  · rw [next_of_rest (show s.rest = c :: d :: rest from hrest)]
    rcases hread with ⟨hn, hp⟩ | ⟨rfl, rfl, rfl⟩
    · have hne : [c, d] ≠ ['\r', '\n'] := by
        rintro heq
        cases heq
        cases hp
      have hlit : kind.literal [c, d] = String.ofList [c, d] := hlit.resolve_left hne
      have hpeek : pair? c (⟨s.here, [c], d :: rest⟩ : Scanner).peek? = some kind := hp
      rw [afterFirst_of_pair hn hpeek]
      exact congrArg (fun r => (some r.1, r.2)) (accept_eq s.here rest hlit)
    · rfl
  · exact hread.elim

/-- A comment takes the rest of its line. -/
theorem next_of_comment {body : List Char} (hbody : '\n' ∉ body)
    (hstop : ∀ c ∈ rest.head?, c = '\n') (hrest : s.rest = '#' :: (body ++ rest)) :
    s.next = (some (.ok (Token.ofLexeme s.here .comment ('#' :: body))),
      ⟨s.here, '#' :: body, rest⟩) := by
  have hread : (⟨s.here, ['#'], body ++ rest⟩ : Scanner).readWhile (· != '\n') =
      ⟨s.here, '#' :: body, rest⟩ := by
    refine readWhile_append _ _ _ _ (fun c hc => ?_) fun c hc => ?_
    · exact bne_iff_ne.2 (ne_of_mem_of_not_mem hc hbody)
    · simp [hstop c hc]
  rw [next_of_rest hrest]
  show (some (comment _).1, (comment _).2) = _
  simp only [comment, hread]
  rfl

/-- A string that is closed is taken with its quotes. -/
theorem next_of_string {body : List Char}
    (hbody : ∀ c ∈ body, c ≠ '\'' ∧ c ≠ '\r' ∧ c ≠ '\n')
    (hrest : s.rest = '\'' :: (body ++ '\'' :: rest)) :
    s.next = (some (.ok (Token.ofLexeme s.here .string ('\'' :: (body ++ ['\''])))),
      ⟨s.here, '\'' :: (body ++ ['\'']), rest⟩) := by
  have hchar : ∀ c ∈ body, isStringChar c := fun c hc => by
    obtain ⟨h1, h2, h3⟩ := hbody c hc
    simp [isStringChar, h1, h2, h3]
  have hstop : ∀ c ∈ ('\'' :: rest).head?, isStringChar c = false := by
    rintro c ⟨⟩
    rfl
  have hread := readWhile_append s.here ['\''] body ('\'' :: rest) hchar hstop
  have hvalue := takeWhile_append_stop hchar hstop
  rw [next_of_rest hrest]
  show (some (string _).1, (string _).2) = _
  simp only [string, hread, hvalue]
  simp [peek?, advance, token, span, here, Token.ofLexeme, Token.Kind.literal]

/-- A template that is closed is taken with its quotes. -/
theorem next_of_template {body : List Char} (hbody : '"' ∉ body)
    (hrest : s.rest = '"' :: (body ++ '"' :: rest)) :
    s.next = (some (.ok (Token.ofLexeme s.here .template ('"' :: (body ++ ['"'])))),
      ⟨s.here, '"' :: (body ++ ['"']), rest⟩) := by
  have hchar : ∀ c ∈ body, (c != '"') = true := fun c hc =>
    bne_iff_ne.2 (ne_of_mem_of_not_mem hc hbody)
  have hstop : ∀ c ∈ ('"' :: rest).head?, (c != '"') = false := by
    rintro c ⟨⟩
    rfl
  have hread := readWhile_append s.here ['"'] body ('"' :: rest) hchar hstop
  have hvalue := takeWhile_append_stop hchar hstop
  rw [next_of_rest hrest]
  show (some (template _).1, (template _).2) = _
  simp only [template, hread, hvalue]
  simp [peek?, advance, token, span, here, Token.ofLexeme, Token.Kind.literal]

theorem literal_of_wordKind {kind : Token.Kind} (h : WordKind lex kind) :
    kind.literal lex = String.ofList lex := by
  cases h <;> rfl

/-- A word ends before the first character that is not of a word. -/
theorem next_of_word {kind : Token.Kind} (hword : IsWord lex) (hkind : WordKind lex kind)
    (hstop : ∀ c ∈ rest.head?, isWordChar c = false) (hrest : s.rest = lex ++ rest) :
    s.next = (some (.ok (Token.ofLexeme s.here kind lex)), ⟨s.here, lex, rest⟩) := by
  obtain @⟨c, cs, first, more⟩ := hword
  have hread := readWhile_append s.here [c] cs rest more hstop
  have hafter : (⟨s.here, [c], cs ++ rest⟩ : Scanner).afterFirst c =
      (.ok (Token.ofLexeme s.here kind (c :: cs)), ⟨s.here, c :: cs, rest⟩) := by
    rw [afterFirst_of_isWordChar (isWordChar_of_isWordStart first), if_pos first, word, hread]
    simp only [List.singleton_append, lexemeText, wordKind_of_wordKind hkind]
    exact accept_eq _ _ (literal_of_wordKind hkind)
  rw [next_of_rest (show s.rest = c :: (cs ++ rest) from hrest), hafter]

/-- What a run of digits and dots makes, by the number of its dots. -/
theorem next_of_numberRun (hrun : NumberRun lex)
    (hstop : ∀ c ∈ rest.head?, isDigit c = false ∧ c ≠ '.') (hrest : s.rest = lex ++ rest) :
    s.next = (some (if lex.count '.' ≤ 1 then
        .ok (Token.ofLexeme s.here (if lex.count '.' = 1 then .float else .integer) lex)
      else .error ⟨.invalidNumber (String.ofList lex), ⟨s.here, s.here.after lex⟩⟩),
      ⟨s.here, lex, rest⟩) := by
  have hnumber : ∀ (c : Char) (cs : List Char), lex = c :: cs → (∃ d ∈ lex, isDigit d) →
      (∀ d ∈ cs, isDigit d ∨ d = '.') →
      (⟨s.here, [c], cs ++ rest⟩ : Scanner).number =
        (if lex.count '.' ≤ 1 then
          .ok (Token.ofLexeme s.here (if lex.count '.' = 1 then .float else .integer) lex)
        else .error ⟨.invalidNumber (String.ofList lex), ⟨s.here, s.here.after lex⟩⟩,
        ⟨s.here, lex, rest⟩) := by
    rintro c cs rfl hdigit hcs
    have hread := readWhile_append (p := fun c => isDigit c || c == '.') s.here [c] cs rest
      (fun d hd => by simpa using hcs d hd)
      (fun d hd => by simpa using hstop d hd)
    have hany : (c :: cs).any isDigit = true := List.any_eq_true.2 hdigit
    unfold number
    simp only [hread, List.singleton_append, hany, Bool.true_and, decide_eq_true_eq]
    split
    · split <;> exact accept_eq _ _ rfl
    · rfl
  cases hrun with
  | @digit d cs first more =>
    rw [next_of_rest hrest, afterFirst_of_isWordChar (isWordChar_of_isDigit first),
      not_isWordStart_of_isDigit first, if_neg Bool.false_ne_true, if_pos first]
    exact congrArg (fun r => (some r.1, r.2))
      (hnumber d cs rfl ⟨d, List.mem_cons_self, first⟩ more)
  | @dot d cs first more =>
    rw [next_of_rest (show s.rest = '.' :: d :: (cs ++ rest) from hrest)]
    have hafter : (⟨s.here, ['.'], d :: (cs ++ rest)⟩ : Scanner).afterFirst '.' =
        (⟨s.here, ['.'], (d :: cs) ++ rest⟩ : Scanner).number := by
      simp [afterFirst, punctuation?, pair?, peek?, first]
    rw [hafter]
    refine congrArg (fun r => (some r.1, r.2)) (hnumber '.' (d :: cs) rfl ?_ ?_)
    · exact ⟨d, by simp, first⟩
    · intro c hc
      rcases List.mem_cons.1 hc with rfl | hc
      · exact .inl first
      · exact more c hc

/-- What a lexeme at `p` makes of a call. -/
def outcome (p : Position) (lexeme : List Char) :
    Except LexicalError.Cause Token.Kind → Except LexicalError Token
  | .ok kind => .ok (Token.ofLexeme p kind lexeme)
  | .error cause => .error ⟨cause, ⟨p, p.after lexeme⟩⟩

/-- **The longest lexeme is what a call takes.** -/
theorem next_of_longest {r : Except LexicalError.Cause Token.Kind} (h : Longest s.rest lex r)
    (hrest : s.rest = lex ++ rest) :
    s.next = (some (outcome s.here lex r), ⟨s.here, lex, rest⟩) := by
  have hstop : ∀ c ∈ rest.head?, ∀ r', ¬ Lexeme (lex ++ [c]) r' := fun c hc r' =>
    not_lexeme_of_longest (hrest ▸ h) hc
  have hnumber : NumberRun lex → ∀ c ∈ rest.head?, isDigit c = false ∧ c ≠ '.' := by
    intro hrun c hc
    by_contra hne
    have hc' : isDigit c ∨ c = '.' := by
      by_contra hnot
      push Not at hnot
      exact hne ⟨by simpa using hnot.1, hnot.2⟩
    obtain ⟨r', hr'⟩ := (hrun.concat hc').lexeme
    exact hstop c hc r' hr'
  cases h.isLexeme with
  | fixed listed => exact next_of_fixed h listed hrest
  | @comment body oneLine =>
    refine next_of_comment oneLine (fun c hc => ?_) hrest
    by_contra hne
    refine hstop c hc _ (Lexeme.comment (?_ : '\n' ∉ body ++ [c]))
    simp [oneLine, Ne.symm hne]
  | string inside => exact next_of_string inside (by simpa using hrest)
  | template inside => exact next_of_template inside (by simpa using hrest)
  | @word _ kind isWord isKind =>
    refine next_of_word isWord isKind (fun c hc => ?_) hrest
    by_contra hne
    obtain ⟨kind', hkind'⟩ := exists_wordKind (lex ++ [c])
    have hlonger : IsWord (lex ++ [c]) := isWord.concat (by simpa using hne)
    exact hstop c hc _ (.word hlonger hkind')
  | integer isRun dots =>
    rw [next_of_numberRun isRun (hnumber isRun) hrest, dots]
    rfl
  | float isRun dots =>
    rw [next_of_numberRun isRun (hnumber isRun) hrest, dots]
    rfl
  | malformed isRun dots =>
    rw [next_of_numberRun isRun (hnumber isRun) hrest, if_neg (by omega)]
    rfl

/-- A text is a lexeme for one thing only. -/
theorem lexeme_unique {r r' : Except LexicalError.Cause Token.Kind} (h : Lexeme lex r)
    (h' : Lexeme lex r') : r = r' := by
  -- a lexeme is the longest that it starts with itself, so a call on it gives both outcomes
  have self : ∀ {r}, Lexeme lex r → Longest (atStart lex).rest lex r := fun h =>
    ⟨h, List.prefix_rfl, fun _ _ _ hl => hl.length_le⟩
  have hnext := next_of_longest (self h) (List.append_nil _).symm
  rw [next_of_longest (self h') (List.append_nil _).symm] at hnext
  have heq : outcome (atStart lex).here lex r' = outcome (atStart lex).here lex r := by
    simpa using hnext
  cases r <;> cases r' <;> simp_all [outcome, Token.ofLexeme]

/-! ## Texts that start with no lexeme -/

/-- Where no lexeme begins, only open quotes are told apart from other characters. -/
theorem afterFirst_of_noLexeme {c : Char} {cs : List Char} (h : NoLexeme (c :: cs))
    (p : Position) :
    (⟨p, [c], cs⟩ : Scanner).afterFirst c =
      if c = '\'' then (⟨p, [c], cs⟩ : Scanner).string
      else if c = '"' then (⟨p, [c], cs⟩ : Scanner).template
      else (.error ⟨.unexpectedChar c, Span.point p⟩, ⟨p, [c], cs⟩) := by
  have one : ∀ r, ¬ Lexeme [c] r := fun r hr => h _ r hr ⟨cs, rfl⟩
  have two : ∀ d r, cs.head? = some d → ¬ Lexeme [c, d] r := by
    rintro d r hd hr
    cases cs with
    | nil => cases hd
    | cons d' ds => cases hd; exact h _ r hr ⟨ds, rfl⟩
  have hfixed : ∀ kind, ([c], kind) ∉ fixedLexemes := fun kind hmem => one _ (.fixed hmem)
  have hpunctuation : punctuation? c = none := by
    cases hp : punctuation? c with
    | none => rfl
    | some kind => exact absurd (mem_fixedLexemes_of_punctuation hp) (hfixed kind)
  have hpair : pair? c (⟨p, [c], cs⟩ : Scanner).peek? = none := by
    cases hp : pair? c (⟨p, [c], cs⟩ : Scanner).peek? with
    | none => rfl
    | some kind =>
      obtain ⟨d, hd, hmem⟩ := mem_fixedLexemes_of_pair hp
      exact absurd (Lexeme.fixed hmem) (two d _ hd)
  have hcrlf : ¬ (c = '\r' ∧ (⟨p, [c], cs⟩ : Scanner).peek? = some '\n') := by
    rintro ⟨rfl, hd⟩
    exact two '\n' (.ok .newline) hd (.fixed (by decide))
  have hhash : c ≠ '#' := by rintro rfl; exact one _ (.comment (by simp))
  have hdot : c ≠ '.' := by rintro rfl; exact hfixed .dot (by decide)
  have hcolon : c ≠ ':' := by rintro rfl; exact hfixed .colon (by decide)
  have hop : ¬ (c = '=' ∨ isOperatorChar c) := by
    intro hc
    have hmem : c ∈ '=' :: operatorChars := by
      simpa [isOperatorChar, List.contains_eq_mem] using hc
    have all : ('=' :: operatorChars).all (fun d => ([d], Token.Kind.operator) ∈ fixedLexemes) =
        true := by decide
    exact hfixed _ (of_decide_eq_true (List.all_eq_true.1 all c hmem))
  have hword : isWordStart c = false := by
    by_contra hne
    obtain ⟨kind, hkind⟩ := exists_wordKind [c]
    exact one _ (.word (.intro (by simpa using hne) (by simp)) hkind)
  have hdigit : isDigit c = false := by
    by_contra hne
    obtain ⟨r, hr⟩ := NumberRun.lexeme (.digit (by simpa using hne) (by simp) : NumberRun [c])
    exact one r hr
  rw [not_or] at hop
  unfold afterFirst
  rw [hpunctuation, hpair]
  simp [hcrlf, hhash, hdot, hcolon, hop.1, hop.2, hword, hdigit]

/-- A string that is not closed is read to the end of its line. -/
theorem string_of_open {body tail : List Char}
    (inside : ∀ c ∈ body, c ≠ '\'' ∧ c ≠ '\r' ∧ c ≠ '\n')
    (stop : ∀ c ∈ tail.head?, c = '\r' ∨ c = '\n') (p : Position) :
    (⟨p, ['\''], body ++ tail⟩ : Scanner).string =
      (.error ⟨.unterminatedString, ⟨p, p.after ('\'' :: body)⟩⟩, ⟨p, '\'' :: body, tail⟩) := by
  have hread : (⟨p, ['\''], body ++ tail⟩ : Scanner).readWhile isStringChar =
      ⟨p, '\'' :: body, tail⟩ := by
    refine readWhile_append p ['\''] body tail (fun c hc => ?_) fun c hc => ?_
    · obtain ⟨h1, h2, h3⟩ := inside c hc
      simp [isStringChar, h1, h2, h3]
    · rcases stop c hc with rfl | rfl <;> rfl
  have hpeek : (⟨p, '\'' :: body, tail⟩ : Scanner).peek? ≠ some '\'' := by
    intro hc
    rcases stop _ hc with h | h <;> cases h
  simp only [string, hread]
  rw [if_neg hpeek]
  rfl

/-- A template that is not closed is read to the end of the text. -/
theorem template_of_open {body : List Char} (inside : '"' ∉ body) (p : Position) :
    (⟨p, ['"'], body⟩ : Scanner).template =
      (.error ⟨.unterminatedTemplate, ⟨p, p.after ('"' :: body)⟩⟩, ⟨p, '"' :: body, []⟩) := by
  have hread := readWhile_append (p := (· != '"')) p ['"'] body []
    (fun c hc => bne_iff_ne.2 (ne_of_mem_of_not_mem hc inside)) (by simp)
  rw [List.append_nil] at hread
  simp only [template, hread]
  rfl

/-- **A call gives and takes what the grammar says.** -/
theorem next_of_reads {r : Except LexicalError Token} (h : Reads s.here s.rest r lex)
    (hrest : s.rest = lex ++ rest) : s.next = (some r, ⟨s.here, lex, rest⟩) := by
  cases h with
  | token isLongest => exact next_of_longest isLongest hrest
  | malformed isLongest => exact next_of_longest isLongest hrest
  | @openString body tail noLexeme split inside stop =>
    obtain rfl : tail = rest := by rw [split] at hrest; simpa using hrest
    rw [next_of_rest split, afterFirst_of_noLexeme (split ▸ noLexeme), if_pos rfl,
      string_of_open inside stop]
  | @openTemplate body noLexeme split inside =>
    obtain rfl : rest = [] := by simpa using hrest
    rw [next_of_rest split, afterFirst_of_noLexeme (split ▸ noLexeme), if_neg (by decide),
      if_pos rfl, template_of_open inside, split]
  | @unexpected c cs noLexeme split notQuote notDoubleQuote =>
    obtain rfl : cs = rest := by rw [split] at hrest; simpa using hrest
    rw [next_of_rest split, afterFirst_of_noLexeme (split ▸ noLexeme), if_neg notQuote,
      if_neg notDoubleQuote]

/-- What is read at a place is one thing only. -/
theorem reads_unique {p : Position} {text lex' : List Char} {r r' : Except LexicalError Token}
    (h : Reads p text r lex) (h' : Reads p text r' lex') : r = r' ∧ lex = lex' := by
  obtain ⟨rest, hrest⟩ := h.isStart
  obtain ⟨rest', hrest'⟩ := h'.isStart
  have hnext := next_of_reads (s := ⟨p, [], text⟩) h hrest.symm
  rw [next_of_reads (s := ⟨p, [], text⟩) h' hrest'.symm] at hnext
  simp only [Prod.mk.injEq, Option.some.injEq, Scanner.mk.injEq] at hnext
  exact ⟨hnext.1.symm, hnext.2.2.1.symm⟩

/-- Every call before the end of the text reads something and leaves the rest. -/
theorem next_reads (s : Scanner) (h : s.rest ≠ []) :
    ∃ r lexeme rest, Reads s.here s.rest r lexeme ∧ s.rest = lexeme ++ rest ∧
      s.next = (some r, ⟨s.here, lexeme, rest⟩) := by
  obtain ⟨r, lexeme, hreads⟩ := exists_reads s.here h
  obtain ⟨rest, hrest⟩ := hreads.isStart
  exact ⟨r, lexeme, rest, hreads, hrest.symm, next_of_reads hreads hrest.symm⟩

/-! ## Calls up to the end -/

theorem next_of_rest_nil {s : Scanner} (h : s.rest = []) : s.next = (none, s.mark) := by
  unfold next
  split
  · rfl
  · next c cs hcons => rw [h] at hcons; cases hcons

theorem results_of_rest_nil {s : Scanner} (h : s.rest = []) : s.results = [] := by
  rw [results]
  split
  · rfl
  · next r s' hnext => rw [next_of_rest_nil h] at hnext; cases hnext

theorem results_of_next {s s' : Scanner} {r : Except LexicalError Token}
    (h : s.next = (some r, s')) : s.results = r :: s'.results := by
  rw [results]
  split
  · next hnext => rw [h] at hnext; cases hnext
  · next r' s'' hnext => rw [h] at hnext; cases hnext; rfl

end Scanner

end Curly
