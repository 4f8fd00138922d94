import Curly.Proofs.Token.LineCut
import Curly.Proofs.Token.Tiling

/-!
# The first error of a text

What comes before the first error of a text is cut into the same tokens with the error after it and
without (`Source.exists_fault`, `CutBefore.tokenizes`). If the text ends with a line feed, the
error is final: no lexeme but a template goes on over the line feed, so whatever comes after it,
the tokens before the error and the error stay. Only an open template can still be closed
(`Source.tokens?_final`).
-/

namespace Curly

variable {p : Position} {text lexeme front rest : List Char} {t : Token} {ts : List Token}
  {e : LexicalError} {kind : Token.Kind} {out : Except LexicalError (List Token)}
  {r : Except LexicalError.Cause Token.Kind}

/-! ## Before the error -/

/-- `CutBefore p front rest ts`: with `rest` after it, `front`, which stands at `p`, is cut into
`ts`. -/
inductive CutBefore : Position → List Char → List Char → List Token → Prop
  | nil (p : Position) (rest : List Char) : CutBefore p [] rest []
  | token {p : Position} {lexeme front rest : List Char} {t : Token} {ts : List Token}
    (reads : Reads p (lexeme ++ (front ++ rest)) (.ok t) lexeme)
    (later : CutBefore (p.after lexeme) front rest ts) :
    CutBefore p (lexeme ++ front) rest (t :: ts)

namespace CutBefore

/-- With nothing after it the text is cut into the same tokens. -/
theorem tokenizes (h : CutBefore p front rest ts) : Tokenizes p front (.ok ts) := by
  induction h with
  | nil p => exact .done p
  | token reads later ih =>
    cases reads with
    | token isLongest =>
      rw [← List.append_assoc] at isLongest
      exact .token (.token (isLongest.of_append (List.prefix_append _ _))) ih

/-- All of the text is cut into these tokens and those of what comes after them. -/
theorem followed (h : CutBefore p front rest ts) (hrest : Tokenizes (p.after front) rest out) :
    Tokenizes p (front ++ rest) (out.map (ts ++ ·)) := by
  induction h with
  | nil p => cases out <;> exact hrest
  | @token p lexeme front rest t ts reads later ih =>
    rw [Position.after_append] at hrest
    have htoken := Tokenizes.token reads (ih hrest)
    have hout : (out.map (ts ++ ·)).map (t :: ·) = out.map (t :: ts ++ ·) := by cases out <;> rfl
    rwa [hout, ← List.append_assoc] at htoken

/-- **The tokens stay** whatever comes after a line feed that comes after them. -/
theorem append (h : CutBefore p front rest ts) (hend : rest.getLast? = some '\n')
    (tail : List Char) : CutBefore p front (rest ++ tail) ts := by
  obtain ⟨line, hrest⟩ := List.getLast?_eq_some_iff.1 hend
  clear hend
  induction h with
  | nil p => exact .nil p _
  | @token p lexeme front rest t ts reads later ih =>
    subst hrest
    refine .token ?_ (ih rfl)
    cases reads with
    | token isLongest =>
      have hwhole : lexeme ++ (front ++ (line ++ ['\n'])) =
          lexeme ++ (front ++ line) ++ ['\n'] := by simp
      rw [hwhole] at isLongest
      have hlongest := (isLongest.of_append (List.prefix_append _ _)).append (.inl rfl) tail
      rw [List.append_assoc, List.append_assoc] at hlongest
      rw [List.append_assoc line]
      exact .token hlongest

end CutBefore

/-- The first outcome is read at the start of the text, and the others after it. -/
theorem Scanner.exists_of_results {s : Scanner} {r : Except LexicalError Token}
    {later : List (Except LexicalError Token)} (h : s.results = r :: later) :
    ∃ lexeme rest, s.rest = lexeme ++ rest ∧ Reads s.here s.rest r lexeme ∧
      (⟨s.here, lexeme, rest⟩ : Scanner).results = later := by
  have hne : s.rest ≠ [] := fun hnil => by
    rw [results_of_rest_nil hnil] at h
    cases h
  obtain ⟨r', lexeme, rest, reads, hrest, hnext⟩ := s.next_reads hne
  rw [results_of_next hnext] at h
  obtain ⟨rfl, hlater⟩ := List.cons.inj h
  exact ⟨lexeme, rest, hrest, reads, hlater⟩

/-- **Scanning up to an error** cuts what comes before it into the tokens before it. -/
theorem Scanner.exists_fault {s : Scanner} {later : List (Except LexicalError Token)}
    (h : s.results = ts.map .ok ++ .error e :: later) :
    ∃ front rest lexeme, s.rest = front ++ rest ∧ CutBefore s.here front rest ts ∧
      Reads (s.here.after front) rest (.error e) lexeme := by
  induction ts generalizing s with
  | nil =>
    obtain ⟨lexeme, rest, -, reads, -⟩ := exists_of_results h
    exact ⟨[], s.rest, lexeme, rfl, .nil _ _, reads⟩
  | cons t ts ih =>
    obtain ⟨lexeme, more, hrest, reads, hlater⟩ := exists_of_results h
    obtain ⟨front, rest, fault, hmore, hcut, hfault⟩ := ih hlater
    have hmore' : more = front ++ rest := hmore
    rw [hrest, hmore'] at reads
    refine ⟨lexeme ++ front, rest, fault, ?_, .token reads hcut, ?_⟩
    · rw [hrest, hmore', List.append_assoc]
    · rw [Position.after_append]
      exact hfault

theorem Scanner.tokensBeforeError_append (ts : List Token) (e : LexicalError)
    (later : List (Except LexicalError Token)) :
    tokensBeforeError (ts.map .ok ++ .error e :: later) = ts := by
  induction ts with
  | nil => rfl
  | cons t ts ih => exact congrArg (t :: ·) ih

/-- **Where the error of a text is**: after the tokens before it. -/
theorem Source.exists_fault {src : Source} (h : src.tokens? = .error e) :
    ∃ front rest lexeme, src.chars = front ++ rest ∧
      CutBefore .origin front rest (Scanner.tokensBeforeError src.scan) ∧
      Reads (Position.origin.after front) rest (.error e) lexeme := by
  have hcollect : Scanner.collect src.scan = .error e := by
    rw [tokens?] at h
    cases hscan : Scanner.collect src.scan with
    | ok ts =>
      rw [hscan] at h
      cases h
    | error e' =>
      rw [hscan] at h
      cases h
      rfl
  obtain ⟨ts, later, hresults⟩ := Scanner.collect_eq_error_iff.1 hcollect
  rw [hresults, Scanner.tokensBeforeError_append]
  exact Scanner.exists_fault hresults

/-- An error covers a start of the text that it is found at. -/
theorem Reads.exists_covered (h : Reads p text (.error e) lexeme) :
    ∃ covered rest, text = covered ++ rest ∧ e.span = ⟨p, p.after covered⟩ := by
  cases h with
  | malformed isLongest =>
    obtain ⟨rest, rfl⟩ := isLongest.isStart
    exact ⟨lexeme, rest, rfl, rfl⟩
  | @openString body tail _ split => exact ⟨'\'' :: body, tail, split, rfl⟩
  | openTemplate => exact ⟨text, [], (List.append_nil _).symm, rfl⟩
  | unexpected => exact ⟨[], text, rfl, rfl⟩

/-! ## After the error -/

section Final

variable {tail : List Char} (hend : text.getLast? = some '\n')

include hend

/-- **Only templates go on over a line feed.** -/
theorem Lexeme.isStart_of_lineEnd (h : Lexeme lexeme r) (hstart : lexeme <+: text ++ tail)
    (hquote : text.head? ≠ some '"') : lexeme <+: text := by
  by_cases hle : lexeme.length ≤ text.length
  · exact List.prefix_of_prefix_length_le hstart (List.prefix_append _ _) hle
  obtain ⟨back, rfl⟩ :=
    List.prefix_of_prefix_length_le (List.prefix_append text tail) hstart (by omega)
  have hne : text ≠ [] := by
    rintro rfl
    cases hend
  have hnewline : ∀ c ∈ text.getLast?, c = '\n' := fun c hc => by
    rw [hend] at hc
    exact (Option.some.inj hc).symm
  cases r with
  | ok kind =>
    have htemplate : kind ≠ .template := by
      rintro rfl
      obtain ⟨body, hbody⟩ := h.exists_template
      have hhead := congrArg List.head? hbody
      rw [List.head?_append_of_ne_nil _ hne] at hhead
      exact hquote hhead
    obtain rfl := (h.eq_of_lineEnd hne hnewline htemplate).1
    simp
  | error cause =>
    have hmem : '\n' ∈ text ++ back := List.mem_append_left _ (List.mem_of_getLast? hend)
    generalize text ++ back = lexeme at h hmem
    cases h with
    | malformed isRun => exact absurd (isRun.forall_mem _ hmem) (by decide)

theorem NoLexeme.append (h : NoLexeme text) (hquote : text.head? ≠ some '"') :
    NoLexeme (text ++ tail) :=
  fun l r hl hstart => h l r hl (hl.isStart_of_lineEnd hend hstart hquote)

theorem Longest.append_of_lineEnd (h : Longest text lexeme r) (hquote : text.head? ≠ some '"') :
    Longest (text ++ tail) lexeme r :=
  ⟨h.isLexeme, h.isStart.trans (List.prefix_append _ _),
    fun l r' hl hstart => h.longest l r' hl (hl.isStart_of_lineEnd hend hstart hquote)⟩

/-- **An error before a line feed stays** whatever comes after it, but for an open template. -/
theorem Reads.error_append (h : Reads p text (.error e) lexeme)
    (hcause : e.cause ≠ .unterminatedTemplate) (tail : List Char) :
    Reads p (text ++ tail) (.error e) lexeme := by
  cases h with
  | malformed isLongest =>
    refine .malformed (isLongest.append_of_lineEnd hend fun hquote => ?_)
    obtain ⟨more, rfl⟩ := isLongest.isStart
    cases isLongest.isLexeme with
    | malformed isRun => cases isRun with
      | digit first =>
        cases hquote
        exact absurd first (by decide)
      | dot => cases hquote
  | @openString body line noLexeme split inside stop =>
    have hquote : text.head? ≠ some '"' := by
      rw [split]
      nofun
    have hsplit : text ++ tail = '\'' :: (body ++ (line ++ tail)) := by
      rw [split, List.cons_append, List.append_assoc]
    refine .openString (noLexeme.append hend hquote) hsplit inside fun c hc => ?_
    rcases line with _ | ⟨d, line⟩
    · have hmem := List.mem_of_getLast? hend
      rw [split, List.append_nil] at hmem
      rcases List.mem_cons.1 hmem with hn | hn
      · cases hn
      · exact absurd rfl (inside _ hn).2.2
    · exact stop c hc
  | openTemplate => exact absurd rfl hcause
  | @unexpected c cs noLexeme split notQuote notDoubleQuote =>
    have hquote : text.head? ≠ some '"' := by
      rw [split]
      exact fun hc => notDoubleQuote (Option.some.inj hc)
    exact .unexpected (noLexeme.append hend hquote) (by rw [split, List.cons_append]) notQuote
      notDoubleQuote

end Final

/-- **An open template is closed by a double quote.** -/
theorem Reads.exists_closed (h : Reads p text (.error e) lexeme)
    (hcause : e.cause = .unterminatedTemplate) : ∃ t, Tokenizes p (text ++ ['"']) (.ok [t]) := by
  cases h with
  | malformed | openString | unexpected => cases hcause
  | @openTemplate body noLexeme split inside =>
    have hclosed : text ++ ['"'] = '"' :: (body ++ ['"']) := by rw [split, List.cons_append]
    have hlongest : Longest (text ++ ['"']) (text ++ ['"']) (.ok .template) := by
      rw [hclosed]
      exact ⟨.template inside, List.prefix_rfl, fun l _ _ hl => hl.length_le⟩
    exact ⟨_, hlongest.tokenizes p⟩

namespace Source

variable {src : Source}

/-- **The error of a text that ends with a line feed is final**, but for an open template: it is
closed by a double quote, and any other error stays whatever comes after the text. What comes
before the error has the tokens before it. -/
theorem tokens?_final (hend : src.chars.getLast? = some '\n') (h : src.tokens? = .error e) :
    (e.cause = .unterminatedTemplate →
      ∃ ts, (⟨src.name, src.text ++ "\""⟩ : Source).tokens? = .ok ts) ∧
    (e.cause ≠ .unterminatedTemplate →
      ∀ more, (⟨src.name, src.text ++ more⟩ : Source).tokens? = .error e) ∧
    ∃ before, src.slice? ⟨.origin, e.span.start⟩ = some before ∧
      (⟨src.name, before⟩ : Source).tokens? =
        .ok (Scanner.tokensBeforeError src.scan ++ [Token.endOfInput e.span.start]) := by
  obtain ⟨front, rest, lexeme, hsplit, hcut, hreads⟩ := exists_fault h
  obtain ⟨covered, -, -, hspan⟩ := hreads.exists_covered
  have hend' : rest.getLast? = some '\n' := by
    have hne : rest ≠ [] := by
      rintro rfl
      exact hreads.ne_nil (List.prefix_nil.1 hreads.isStart)
    rwa [hsplit, List.getLast?_append_of_ne_nil _ hne] at hend
  have hmore : ∀ more : String, (⟨src.name, src.text ++ more⟩ : Source).chars =
      front ++ (rest ++ more.toList) := by
    intro more
    rw [chars, String.toList_append, ← chars, hsplit, List.append_assoc]
  refine ⟨fun hcause => ?_, fun hcause more => ?_, String.ofList front, ?_, ?_⟩
  · obtain ⟨t, hclosed⟩ := hreads.exists_closed hcause
    have hall := (hcut.append hend' ['"']).followed hclosed
    exact ⟨_, tokens?_of_tokenizes (hmore "\"" ▸ hall)⟩
  · have hall := (hcut.append hend' more.toList).followed
      (.fault (hreads.error_append hend' hcause more.toList))
    exact tokens?_of_tokenizes (hmore more ▸ hall)
  · rw [hspan]
    exact slice?_front hsplit
  · have hchars : (⟨src.name, String.ofList front⟩ : Source).chars = front := String.toList_ofList
    have htokens := tokens?_of_tokenizes (hchars.symm ▸ hcut.tokenizes)
    rw [htokens, hspan, stop, hchars]
    rfl

theorem tokens?_final_openString :
    (⟨"a", "use 'b\n"⟩ : Source).tokens? =
      .error ⟨.unterminatedString, ⟨⟨1, 5, 4⟩, ⟨1, 7, 6⟩⟩⟩ ∧
    ∀ more, (⟨"a", "use 'b\n" ++ more⟩ : Source).tokens? =
      .error ⟨.unterminatedString, ⟨⟨1, 5, 4⟩, ⟨1, 7, 6⟩⟩⟩ :=
  have hend : (⟨"a", "use 'b\n"⟩ : Source).chars.getLast? = some '\n' := by decide
  have h : (⟨"a", "use 'b\n"⟩ : Source).tokens? =
      .error ⟨.unterminatedString, ⟨⟨1, 5, 4⟩, ⟨1, 7, 6⟩⟩⟩ := by decide +kernel
  ⟨h, (tokens?_final hend h).2.1 LexicalError.Cause.noConfusion⟩

end Source

end Curly
