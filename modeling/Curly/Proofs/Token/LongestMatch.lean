import Curly.Proofs.Token.Next

/-!
# Longest match

A text is cut into tokens by longest match. `Tokenizes` says so of the lexical grammar alone: at
each boundary the longest lexeme of the rest of the text is taken, and the first place where there
is none, or where it is a run of digits with several dots, is the error. Scanning does just this
(`tokens?_eq_iff_tokenizes`).
-/

namespace Curly

/-- `Tokenizes p text out`: cutting `text`, which stands at `p`, at its longest lexemes gives
`out`. -/
inductive Tokenizes : Position → List Char → Except LexicalError (List Token) → Prop
  /-- At the end there is nothing to cut. -/
  | done (p : Position) : Tokenizes p [] (.ok [])
  /-- A token is taken and the rest is cut. -/
  | token {p : Position} {lexeme rest : List Char} {t : Token}
    {out : Except LexicalError (List Token)} (reads : Reads p (lexeme ++ rest) (.ok t) lexeme)
    (later : Tokenizes (p.after lexeme) rest out) :
    Tokenizes p (lexeme ++ rest) (out.map (t :: ·))
  /-- An error ends the cutting. -/
  | fault {p : Position} {text lexeme : List Char} {e : LexicalError}
    (reads : Reads p text (.error e) lexeme) : Tokenizes p text (.error e)

/-- A text is cut in one way only. -/
theorem Tokenizes.unique {p : Position} {text : List Char}
    {out out' : Except LexicalError (List Token)} (h : Tokenizes p text out)
    (h' : Tokenizes p text out') : out = out' := by
  induction h generalizing out' with
  | done p =>
    generalize htext : ([] : List Char) = text at h'
    cases h' with
    | done => rfl
    | token reads => exact absurd (List.append_eq_nil_iff.1 htext.symm).1 reads.ne_nil
    | fault reads =>
      obtain rfl := htext
      exact absurd (List.prefix_nil.1 reads.isStart) reads.ne_nil
  | @token p lexeme rest t out reads later ih =>
    generalize htext : lexeme ++ rest = text at h'
    cases h' with
    | done => exact absurd (List.append_eq_nil_iff.1 htext).1 reads.ne_nil
    | @token _ lexeme' rest' t' _ reads' later' =>
      rw [← htext] at reads'
      obtain ⟨ht, rfl⟩ := Scanner.reads_unique reads reads'
      obtain rfl := List.append_cancel_left htext
      cases ht
      rw [ih later']
    | fault reads' =>
      obtain rfl := htext
      cases (Scanner.reads_unique reads reads').1
  | fault reads =>
    cases h' with
    | done => exact absurd (List.prefix_nil.1 reads.isStart) reads.ne_nil
    | token reads' => cases (Scanner.reads_unique reads reads').1
    | fault reads' =>
      cases (Scanner.reads_unique reads reads').1
      rfl

/-- **Scanning from any place cuts the rest of the text at its longest lexemes.** -/
theorem Scanner.tokenizes_collect (s : Scanner) :
    Tokenizes s.here s.rest (Scanner.collect s.results) := by
  by_cases h : s.rest = []
  · rw [Scanner.results_of_rest_nil h, h]
    exact .done _
  · obtain ⟨r, lexeme, rest, reads, hrest, hnext⟩ := s.next_reads h
    have := Scanner.next_rest_lt hnext
    rw [Scanner.results_of_next hnext]
    cases r with
    | error e => exact .fault reads
    | ok t =>
      rw [hrest] at reads ⊢
      exact .token reads (Scanner.tokenizes_collect ⟨s.here, lexeme, rest⟩)
  termination_by s.rest.length

/-- **The tokens of a text are its longest lexemes**, one after the other, and the text has an
error exactly where these come to an end. -/
theorem tokens?_eq_iff_tokenizes (src : Source) (out : Except LexicalError (List Token)) :
    src.tokens? = out.map (· ++ [Token.endOfInput src.stop]) ↔
      Tokenizes Position.origin src.chars out := by
  have hcut : Tokenizes Position.origin src.chars (Scanner.collect src.scan) :=
    Scanner.tokenizes_collect (Scanner.atStart src.chars)
  have hinj : Scanner.collect src.scan = out ↔
      src.tokens? = out.map (· ++ [Token.endOfInput src.stop]) := by
    rw [Source.tokens?]
    cases Scanner.collect src.scan <;> cases out <;> simp [Except.map]
  rw [← hinj]
  constructor
  · rintro rfl
    exact hcut
  · exact hcut.unique

end Curly
