import Curly.Proofs.Text.Lookup
import Curly.Proofs.Token.Next

/-!
# Lossless scanning

Calls of `Scanner.next` repeated to the end of a text, over any errors, take the text apart
without a gap and without taking a byte twice. `Calls` is such a run, `Tiles` says what it means
for ranges of bytes to cover a stretch of text, and `Fits` what a token's text has to do with the
piece of text that it stands for. `exists_calls_tiling` puts them together: every text has such a
run, which covers it, places its tokens right and decides what `Source.tokens?` gives.
-/

namespace Curly

namespace Scanner

/-- `Calls s calls last`: calling `next` from `s` on gives the outcomes in `calls`, each with the
scanner after it, and then nothing more. -/
inductive Calls : Scanner → List (Except LexicalError Token × Scanner) → Scanner → Prop
  | stop {s last : Scanner} (next : s.next = (none, last)) : Calls s [] last
  | call {s s' last : Scanner} {r : Except LexicalError Token}
    {calls : List (Except LexicalError Token × Scanner)} (next : s.next = (some r, s'))
    (later : Calls s' calls last) : Calls s ((r, s') :: calls) last

/-- The bytes from the start of the current token to where the scanner stands. -/
def range (s : Scanner) : Nat × Nat := (s.start.offset, s.here.offset)

end Scanner

/-- `Tiles start stop ranges`: the ranges are not empty, each begins where the one before ends,
and together they go from `start` to `stop`. -/
inductive Tiles (stop : Nat) : Nat → List (Nat × Nat) → Prop
  | done : Tiles stop stop []
  | range {first last : Nat} {ranges : List (Nat × Nat)} (nonempty : first < last)
    (later : Tiles stop last ranges) : Tiles stop first ((first, last) :: ranges)

/-- What a token of this kind says of the piece of text that it stands for. -/
def Fits (kind : Token.Kind) (literal : String) (text : List Char) : Prop :=
  match kind with
  | .string => text = '\'' :: (literal.toList ++ ['\''])
  | .template => text = '"' :: (literal.toList ++ ['"'])
  | .comment => literal = String.ofList (Text.trim text)
  | .newline => literal = "\n" ∧ (text = ['\n'] ∨ text = ['\r', '\n'])
  | .eof => False
  | _ => literal = String.ofList text

instance (kind : Token.Kind) (literal : String) (text : List Char) :
    Decidable (Fits kind literal text) := by
  unfold Fits
  split <;> infer_instance

/-- The token `t` has its place where the scanner `s` has just read it: its span is the one
between the scanner's bytes, and its text fits the piece of text there. -/
def Token.IsPlaced (src : Source) (s : Scanner) (t : Token) : Prop :=
  src.span? s.range.1 s.range.2 = some t.span ∧
    ∃ text literal, src.slice? t.span = some (String.ofList text) ∧ t.literal = some literal ∧
      Fits t.kind literal text

theorem Token.IsPlaced.ne_eof {src : Source} {s : Scanner} {t : Token} (h : t.IsPlaced src s) :
    t.kind ≠ .eof := by
  obtain ⟨-, text, literal, -, -, hfits⟩ := h
  intro heof
  rw [heof] at hfits
  exact hfits

/-! ## One call -/

theorem fits_of_mem_fixedLexemes : ∀ x ∈ fixedLexemes, Fits x.2 (x.2.literal x.1) x.1 := by
  decide

theorem Lexeme.fits {lexeme : List Char} {kind : Token.Kind} (h : Lexeme lexeme (.ok kind)) :
    Fits kind (kind.literal lexeme) lexeme := by
  cases h with
  | fixed listed => exact fits_of_mem_fixedLexemes _ listed
  | comment | integer | float => rfl
  | string | template => simp [Fits, Token.Kind.literal]
  | word _ isKind => cases isKind <;> rfl

variable {src : Source} {before lexeme rest : List Char}

/-- **A token that is read has its place.** -/
theorem isPlaced_of_reads {t : Token} {text : List Char}
    (h : Reads (Position.origin.after before) text (.ok t) lexeme)
    (hsplit : src.chars = before ++ lexeme ++ rest) :
    t.IsPlaced src ⟨Position.origin.after before, lexeme, rest⟩ := by
  cases h with
  | @token _ kind isLongest =>
    have hstop : (Position.origin.after before).after lexeme =
        Position.origin.after (before ++ lexeme) := (Position.after_append _ _ _).symm
    refine ⟨?_, lexeme, _, ?_, rfl, isLongest.isLexeme.fits⟩
    · simp only [Scanner.range, Scanner.here, Token.ofLexeme_span, hstop]
      exact Source.span?_of_split hsplit
    · rw [Token.ofLexeme_span, hstop]
      exact Source.slice?_of_split hsplit

/-! ## A run of calls -/

/-- The run from a scanner that stands after `before`. -/
theorem Scanner.exists_calls (s : Scanner) (before : List Char)
    (hsplit : src.chars = before ++ s.rest) (hhere : s.here = Position.origin.after before) :
    ∃ calls last, s.Calls calls last ∧
      Tiles src.byteLength s.here.offset (calls.map fun call => call.2.range) ∧
      (∀ call ∈ calls, ∀ t, call.1 = .ok t → t.IsPlaced src call.2) ∧
      calls.map Prod.fst = s.results := by
  by_cases h : s.rest = []
  · have hend : s.here.offset = src.byteLength := by
      rw [hhere, Source.byteLength_eq, hsplit, h, List.append_nil, Position.after_offset,
        Position.origin, Nat.zero_add]
    refine ⟨[], s.mark, .stop (next_of_rest_nil h), ?_, by simp, (results_of_rest_nil h).symm⟩
    rw [hend]
    exact .done
  · obtain ⟨r, lexeme, rest, reads, hrest, hnext⟩ := s.next_reads h
    have hshorter := next_rest_lt hnext
    have hsplit' : src.chars = before ++ lexeme ++ rest := by
      rw [hsplit, hrest, List.append_assoc]
    obtain ⟨calls, last, hcalls, htiles, hplaced, hresults⟩ :=
      exists_calls ⟨s.here, lexeme, rest⟩ (before ++ lexeme) hsplit'
        (by rw [here, hhere, Position.after_append])
    refine ⟨(r, ⟨s.here, lexeme, rest⟩) :: calls, last, .call hnext hcalls, ?_, ?_, ?_⟩
    · refine .range (?_ : s.here.offset < (s.here.after lexeme).offset) htiles
      have := Text.byteLength_pos reads.ne_nil
      rw [Position.after_offset]
      omega
    · intro call hcall t ht
      rcases List.mem_cons.1 hcall with rfl | hlater
      · obtain rfl : r = .ok t := ht
        rw [hhere] at reads ⊢
        exact isPlaced_of_reads reads hsplit'
      · exact hplaced call hlater t ht
    · rw [List.map_cons, hresults, results_of_next hnext]
  termination_by s.rest.length

/-! ## The tokens of a text -/

namespace Scanner

theorem collect_eq_ok_iff {rs : List (Except LexicalError Token)} {ts : List Token} :
    collect rs = .ok ts ↔ rs = ts.map .ok := by
  constructor
  · intro h
    induction rs generalizing ts with
    | nil =>
      cases h
      rfl
    | cons r rs ih =>
      cases r with
      | error e => cases h
      | ok t =>
        cases hrs : collect rs with
        | error e => simp [collect, hrs, Except.map] at h
        | ok ts' =>
          obtain rfl : t :: ts' = ts := by simpa [collect, hrs, Except.map] using h
          rw [ih hrs, List.map_cons]
  · rintro rfl
    induction ts with
    | nil => rfl
    | cons t ts ih => simp [collect, ih, Except.map]

theorem collect_eq_error_iff {rs : List (Except LexicalError Token)} {e : LexicalError} :
    collect rs = .error e ↔ ∃ (ts : List Token) (later : List (Except LexicalError Token)),
      rs = ts.map .ok ++ .error e :: later := by
  constructor
  · intro h
    induction rs with
    | nil => cases h
    | cons r rs ih =>
      cases r with
      | error e' =>
        cases h
        exact ⟨[], rs, rfl⟩
      | ok t =>
        cases hrs : collect rs with
        | ok ts => simp [collect, hrs, Except.map] at h
        | error e' =>
          obtain rfl : e' = e := by simpa [collect, hrs, Except.map] using h
          obtain ⟨ts, later, rfl⟩ := ih hrs
          exact ⟨t :: ts, later, rfl⟩
  · rintro ⟨ts, later, rfl⟩
    induction ts with
    | nil => rfl
    | cons t ts ih => simp [collect, ih, Except.map]

end Scanner

/-- **Scanning loses nothing, over any errors.** The calls of `next` from the start of a text come
to an end. Their ranges of bytes cover the text, every token of them has its place, and the tokens
of the text are those of all calls and the end of input if no call gives an error, and else the
first error. -/
theorem exists_calls_tiling (src : Source) :
    ∃ calls last, (Scanner.atStart src.chars).Calls calls last ∧
      Tiles src.byteLength 0 (calls.map fun call => call.2.range) ∧
      (∀ call ∈ calls, ∀ t, call.1 = .ok t → t.IsPlaced src call.2 ∧ t.kind ≠ .eof) ∧
      (∀ ts, src.tokens? = .ok ts ↔ ∃ stop toks, src.position? src.byteLength = some stop ∧
        calls.map Prod.fst = toks.map .ok ∧ ts = toks ++ [⟨.eof, none, ⟨stop, stop⟩⟩]) ∧
      (∀ e, src.tokens? = .error e ↔
        ∃ (toks : List Token) (later : List (Except LexicalError Token)),
          calls.map Prod.fst = toks.map .ok ++ .error e :: later) := by
  obtain ⟨calls, last, hcalls, htiles, hplaced, hresults⟩ :=
    (Scanner.atStart src.chars).exists_calls []
      (rfl : src.chars = [] ++ (Scanner.atStart src.chars).rest) rfl
  refine ⟨calls, last, hcalls, htiles, fun call hcall t ht => ?_, fun ts => ?_, fun e => ?_⟩
  · exact ⟨hplaced call hcall t ht, (hplaced call hcall t ht).ne_eof⟩
  · rw [hresults, Source.position?_byteLength, Source.tokens?, Source.scan]
    constructor
    · intro h
      cases hc : Scanner.collect (Scanner.atStart src.chars).results with
      | error e => rw [hc] at h; cases h
      | ok toks =>
        rw [hc] at h
        cases h
        exact ⟨src.stop, toks, rfl, Scanner.collect_eq_ok_iff.1 hc, rfl⟩
    · rintro ⟨stop, toks, hstop, htoks, rfl⟩
      cases hstop
      rw [Scanner.collect_eq_ok_iff.2 htoks]
      rfl
  · rw [hresults, ← Scanner.collect_eq_error_iff, Source.tokens?, Source.scan]
    cases Scanner.collect (Scanner.atStart src.chars).results <;> simp [Except.map]

end Curly
