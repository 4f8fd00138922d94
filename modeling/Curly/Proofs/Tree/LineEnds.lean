import Curly.Proofs.Token.LineEnds
import Curly.Proofs.Tree.Fault
import Curly.Proofs.Tree.Parsing

/-!
# Errors in a text with carriage returns

Tokens that are the same but for the line ends after comments are refused alike
(`SameTokens.exists_run_error`). Each token and the one that it is with carriage returns are put
into one, whose places hold the columns of both: the two lists of tokens are then images of one
list, and so are the errors. No error stands where the columns differ.
-/

namespace Curly

variable {ts us : List Token} {t t' : Token} {shift : Nat}

/-! ## Two places in one -/

namespace Position

/-- Two places on one line: the offset is the column of the second. -/
def pair (p q : Position) : Position := ⟨p.line, p.column, q.column⟩

/-- The line and the column. -/
def left (p : Position) : Position := ⟨p.line, p.column, 0⟩

/-- The line and the column of the second of two places. -/
def right (p : Position) : Position := ⟨p.line, p.offset, 0⟩

theorem right_pair {p q : Position} (h : q.line = p.line) : (p.pair q).right = q.left :=
  congrArg (Position.mk · q.column 0) h.symm

theorem beside_of_left {p q : Position} (h : q.left = p.left) : q.Beside p :=
  ⟨(Position.mk.inj h).1, (Position.mk.inj h).2.1⟩

end Position

/-- Two tokens of one kind, at the places of both. -/
def Token.pair (t t' : Token) : Token :=
  ⟨t.kind, t.literal, ⟨t.span.start.pair t'.span.start, t.span.stop.pair t'.span.stop⟩⟩

theorem Token.Same.right_pair (h : t.Same shift t') :
    { (t.pair t').move .right with literal := t'.literal } = t'.move .left := by
  have hspan : (t.pair t').span.move .right = t'.span.move .left := by
    show Span.mk _ _ = Span.mk _ _
    rw [Token.pair, Position.right_pair h.line, Position.right_pair h.stopLine]
  rw [Token.move, Token.move, hspan, h.kind]
  rfl

/-- The tokens of a text, each with the one that it is with carriage returns. -/
def pairs (ts us : List Token) : List Token := List.zipWith Token.pair ts us

theorem SameTokens.map_left (h : SameTokens ts us) :
    (pairs ts us).map (Token.move .left) = ts.map (Token.move .left) := by
  induction h with
  | nil => rfl
  | token _ _ _ ih => exact congrArg (_ :: ·) ih
  | comment _ _ _ _ _ ih => exact congrArg (_ :: _ :: ·) ih

theorem Token.Same.tokens (h : t.Same shift t') {ps qs : List Token}
    (later : (TreeMap.moving .right).Tokens ps qs) :
    (TreeMap.moving .right).Tokens (t.pair t' :: ps) (t'.move .left :: qs) := by
  rw [← h.right_pair]
  by_cases ht : t.kind = .template
  · exact .template ht later
  · rw [h.literal_eq ht]
    exact .keep (fun _ => rfl) later

theorem SameTokens.tokens_right (h : SameTokens ts us) :
    (TreeMap.moving .right).Tokens (pairs ts us) (us.map (Token.move .left)) := by
  induction h with
  | nil => exact .nil
  | token first _ _ ih => exact first.tokens ih
  | comment _ _ first second _ ih => exact first.tokens (second.tokens ih)

theorem SameTokens.lined (h : SameTokens ts us) (hlined : Lined ts) : Lined (pairs ts us) := by
  refine hlined.of_map_kind ?_
  have hkinds := congrArg (List.map Token.kind) h.map_left
  rwa [List.map_map, List.map_map] at hkinds

theorem Token.Same.right_eq_left (h : t.Same 0 t') :
    (t.pair t').span.start.right = (t.pair t').span.start.left :=
  congrArg (Position.mk _ · 0) h.column

/-- **The columns of both are the same** but at line ends after comments. -/
theorem SameTokens.right_eq_left (h : SameTokens ts us) (ht : OffComment (pairs ts us) t) :
    t.span.start.right = t.span.start.left := by
  induction h with
  | nil =>
    obtain ⟨before, after, hsplit, -⟩ := ht
    exact absurd hsplit.symm (by simp [pairs])
  | token first _ _ ih =>
    obtain rfl | hlater := ht.eq_or_tail
    · exact first.right_eq_left
    · exact ih hlater
  | comment isComment isNewline first _ _ ih =>
    obtain rfl | hlater := ht.eq_or_drop isComment isNewline
    · exact first.right_eq_left
    · exact ih hlater

/-! ## Errors -/

namespace TreeMap

variable {m : TreeMap} {r r' : Refusal} {stop : Position}

theorem follows_program (h : m.Tokens ts us) (stop : Position) :
    m.Follows [] ((Builder.run .program stop .empty ts).map Prod.fst)
      ((Builder.run .program (m.position stop) .empty us).map Prod.fst) :=
  follows_run h (Builder.colonAhead_of_not_awaitsColon rfl)

/-- A run that fails does so over changed tokens. -/
theorem exists_run_error (h : m.Tokens ts us)
    (hrun : Builder.run .program stop .empty ts = .error r) :
    ∃ r', Builder.run .program (m.position stop) .empty us = .error r' ∧
      r'.error = r.error.move m.position := by
  have hfollows := follows_program h stop
  rw [hrun] at hfollows
  cases hout : Builder.run .program (m.position stop) .empty us with
  | ok out =>
    rw [hout] at hfollows
    cases hfollows
  | error r' =>
    rw [hout] at hfollows
    cases hfollows with
    | error same => exact ⟨r', rfl, same⟩

/-- A run that fails over changed tokens does so without the change. -/
theorem exists_run_error_of_changed (h : m.Tokens ts us)
    (hrun : Builder.run .program (m.position stop) .empty us = .error r') :
    ∃ r, Builder.run .program stop .empty ts = .error r ∧
      r'.error = r.error.move m.position := by
  cases hout : Builder.run .program stop .empty ts with
  | ok out =>
    have hfollows := follows_program h stop
    rw [hout, hrun] at hfollows
    cases hfollows
  | error r =>
    obtain ⟨r'', hrun', hmove⟩ := exists_run_error h hout
    obtain rfl := Except.error.inj (hrun.symm.trans hrun')
    exact ⟨r, rfl, hmove⟩

end TreeMap

/-- The error `e'` is `e` in a text with carriage returns. -/
structure GrammarError.Same (e e' : GrammarError) : Prop where
  cause : e'.cause = e.cause
  position : e'.position.Beside e.position

/-- **A run over the tokens of a text fails alike with carriage returns.** -/
theorem SameTokens.exists_run_error {r : Refusal} {stop stop' : Position} (h : SameTokens ts us)
    (hlined : Lined ts) (hstop : stop'.line = stop.line)
    (hrun : Builder.run .program stop .empty ts = .error r) :
    ∃ r', Builder.run .program stop' .empty us = .error r' ∧ r.error.Same r'.error := by
  -- from the tokens to the pairs, and from these to the other tokens, by what both look like
  obtain ⟨r₁, hrun₁, hleft⟩ := TreeMap.exists_run_error (TreeMap.tokens_moving .left ts) hrun
  have hpairs := TreeMap.tokens_moving .left (pairs ts us)
  rw [h.map_left] at hpairs
  obtain ⟨r₂, hrun₂, hleft'⟩ :
      ∃ r₂, Builder.run .program (stop.pair stop') .empty (pairs ts us) = .error r₂ ∧
        r₁.error = r₂.error.move .left := TreeMap.exists_run_error_of_changed hpairs hrun₁
  obtain ⟨r₃, hrun₃, hright⟩ := TreeMap.exists_run_error h.tokens_right hrun₂
  have hstop' : (TreeMap.moving .right).position (stop.pair stop') =
      (TreeMap.moving .left).position stop' := Position.right_pair hstop
  rw [hstop'] at hrun₃
  obtain ⟨r', hrun', hright'⟩ :=
    TreeMap.exists_run_error_of_changed (TreeMap.tokens_moving .left us) hrun₃
  obtain ⟨t, ht, hposition⟩ := Builder.exists_position (h.lined hlined) hrun₂
  obtain ⟨hcause, hplace⟩ := GrammarError.mk.inj (hright'.symm.trans hright)
  obtain ⟨hcause', hplace'⟩ := GrammarError.mk.inj (hleft'.symm.trans hleft)
  refine ⟨r', hrun', hcause.trans hcause', Position.beside_of_left ?_⟩
  calc r'.error.position.left = r₂.error.position.right := hplace
    _ = r₂.error.position.left := by rw [hposition, h.right_eq_left ht]
    _ = r.error.position.left := hplace'

/-- The error `e'` is `e` in a text with carriage returns. -/
inductive SourceError.Same : SourceError → SourceError → Prop
  | lexical {e e' : LexicalError} (same : e.Same e') : Same (.lexical e) (.lexical e')
  | grammatical {e e' : GrammarError} (same : e.Same e') : Same (.grammatical e) (.grammatical e')

/-- **A source that is no program is none with carriage returns**, for the same reason and in the
same place. -/
theorem Source.exists_parse_error {src : Source} {e : SourceError} (h : '\r' ∉ src.chars)
    (herror : src.parse = .error e) : ∃ e', src.withReturns.parse = .error e' ∧ e.Same e' := by
  have hsame := sameCut_withReturns h
  cases htokens : src.tokens? with
  | error lexical =>
    rw [parse, htokens] at herror
    cases herror
    rw [htokens] at hsame
    generalize htokens' : src.withReturns.tokens? = out at hsame
    cases hsame with
    | @error _ e' same =>
      refine ⟨.lexical e', ?_, .lexical same⟩
      rw [parse, htokens']
  | ok all =>
    obtain ⟨ts, hall, hcut⟩ := exists_of_tokens? htokens
    rw [htokens] at hsame
    generalize htokens' : src.withReturns.tokens? = out at hsame
    cases hsame with
    | ok tokens =>
      cases e with
      | lexical e =>
        rw [parse_of_tokens? htokens] at herror
        cases hbuild : src.build all <;> rw [hbuild] at herror <;> cases herror
      | grammatical e =>
        obtain ⟨r, hrun, rfl⟩ := (parse_eq_error_of_tokens? htokens e).1 herror
        obtain ⟨r', hrun', hsame⟩ := tokens.exists_run_error (hall ▸ hcut.lined rfl)
          src.beside_stop.line hrun
        exact ⟨_, (parse_eq_error_of_tokens? htokens' _).2 ⟨r', hrun', rfl⟩, .grammatical hsame⟩

end Curly
