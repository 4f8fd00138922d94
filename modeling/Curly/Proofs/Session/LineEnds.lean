import Curly.Proofs.Session.Parts
import Curly.Proofs.Tree.LineEnds

/-!
# Line ends do not matter

A text comes to the same whether its lines end with a line feed alone or with a carriage return
before it: it has the same canonical text or the same error, shown in the same way, and as a block
it is complete or not (`Source.same_withReturns`). The carriage returns leave a trace only in the
line ends after comments, which start one column further on (`Source.column_withReturns_ne`).
-/

namespace Curly

/-! ## Errors -/

namespace SourceError

variable {e e' : SourceError}

theorem Same.message (h : e.Same e') : e'.message = e.message := by
  cases h with
  | lexical same => simp only [SourceError.message, LexicalError.message, same.cause]
  | grammatical same => simp only [SourceError.message, GrammarError.message, same.cause]

theorem Same.start (h : e.Same e') : e'.span.start.Beside e.span.start := by
  cases h with
  | lexical same => exact same.start
  | grammatical same => exact same.position

theorem Same.stop (h : e.Same e') : e'.span.stop.Beside e.span.stop := by
  cases h with
  | lexical same => exact same.stop
  | grammatical same => exact same.position

end SourceError

/-- What comes of formatting two sources is the same text, or the same error shown alike. -/
inductive SameOutcome (src src' : Source) :
    Except SourceError String → Except SourceError String → Prop
  | ok (text : String) : SameOutcome src src' (.ok text) (.ok text)
  | error {e e' : SourceError} (same : e.Same e') (message : e'.message = e.message)
    (start : e'.span.start.Beside e.span.start) (shown : e'.render src' = e.render src) :
    SameOutcome src src' (.error e) (.error e')

namespace Source

variable {src : Source}

/-- **Canonical text is the same for a source with carriage returns**, and so is its error. -/
theorem sameOutcome_withReturns (style : Layout.Style) (h : '\r' ∉ src.chars) :
    SameOutcome src src.withReturns (src.format style) (src.withReturns.format style) := by
  cases hparse : src.parse with
  | ok p =>
    obtain ⟨ts, hcut, -, -, hitems⟩ := exists_items_of_parse hparse
    obtain ⟨out, hcut', hsame⟩ := hcut.exists_withReturns h ⟨rfl, rfl⟩
    rw [← chars_withReturns] at hcut'
    cases hsame with
    | ok tokens =>
      rw [format_of_items hitems hcut,
        format_of_unplaced hitems hcut' (tokens.map_unplaced hitems.ne_template)]
      exact .ok _
  | error e =>
    obtain ⟨e', herror, hsame⟩ := exists_parse_error h hparse
    rw [format, format, hparse, herror]
    exact .error hsame hsame.message hsame.start
      (Diagnostic.render_withReturns h hsame.message hsame.start hsame.stop)

end Source

/-! ## Blocks -/

theorem SameTokens.countP_kind {ts us : List Token} (h : SameTokens ts us) (kind : Token.Kind) :
    us.countP (·.kind == kind) = ts.countP (·.kind == kind) := by
  have hcount := congrArg (List.countP (· == kind)) h.map_kind
  rwa [List.countP_map, List.countP_map] at hcount

/-- A block is complete with carriage returns if it is without them. -/
theorem Session.isComplete_withReturns {src : Source} (h : '\r' ∉ src.chars) :
    isComplete src.withReturns.text = isComplete src.text := by
  have hsame : SameCut (Source.interactive src.text).tokens?
      (Source.interactive src.withReturns.text).tokens? := Source.sameCut_withReturns h
  unfold isComplete
  generalize (Source.interactive src.text).tokens? = out at hsame ⊢
  generalize (Source.interactive src.withReturns.text).tokens? = out' at hsame ⊢
  cases hsame with
  | ok tokens => simp only [tokens.countP_kind]
  | error same => simp only [same.cause]

namespace Source

/-- **It does not matter how the lines of a text end.** With a carriage return before every line
feed a source has the same canonical text, or the same error, in the same place and shown in the
same way. It has the same tokens, of which only the line ends after comments start one column
further on, and as a block it is complete or not. -/
theorem same_withReturns (style : Layout.Style) (src : Source) (h : '\r' ∉ src.chars) :
    SameOutcome src src.withReturns (src.format style) (src.withReturns.format style) ∧
      SameCut src.tokens? src.withReturns.tokens? ∧
      Session.isComplete src.withReturns.text = Session.isComplete src.text :=
  ⟨sameOutcome_withReturns style h, sameCut_withReturns h, Session.isComplete_withReturns h⟩

/-- A comment, and an error at a line end. -/
theorem same_withReturns_comment :
    SameOutcome ⟨"a", "#b\nuse\n"⟩ ⟨"a", "#b\r\nuse\r\n"⟩
        ((Source.mk "a" "#b\nuse\n").format .standard)
        ((Source.mk "a" "#b\r\nuse\r\n").format .standard) ∧
      SameCut (Source.mk "a" "#b\nuse\n").tokens? (Source.mk "a" "#b\r\nuse\r\n").tokens? ∧
      Session.isComplete "#b\r\nuse\r\n" = Session.isComplete "#b\nuse\n" := by
  have hreturns : (Source.mk "a" "#b\nuse\n").withReturns = ⟨"a", "#b\r\nuse\r\n"⟩ := by decide
  have hsame := same_withReturns .standard ⟨"a", "#b\nuse\n"⟩ (by decide)
  rwa [hreturns] at hsame

/-- **The columns are not all the same**: the line end after a comment starts one further on. -/
theorem column_withReturns_ne :
    '\r' ∉ (Source.mk "a" "#b\n").chars ∧
      ∃ ts us, (Source.mk "a" "#b\n").tokens? = .ok ts ∧
        (Source.mk "a" "#b\n").withReturns.tokens? = .ok us ∧
        ts.map (·.span.start.column) = [1, 3, 1] ∧ us.map (·.span.start.column) = [1, 4, 1] := by
  have hreturns : (Source.mk "a" "#b\n").withReturns = ⟨"a", "#b\r\n"⟩ := by decide
  refine ⟨by decide, [⟨.comment, some "#b", ⟨⟨1, 1, 0⟩, ⟨1, 3, 2⟩⟩⟩,
    ⟨.newline, some "\n", ⟨⟨1, 3, 2⟩, ⟨2, 1, 3⟩⟩⟩, Token.endOfInput ⟨2, 1, 3⟩],
    [⟨.comment, some "#b", ⟨⟨1, 1, 0⟩, ⟨1, 4, 3⟩⟩⟩,
    ⟨.newline, some "\n", ⟨⟨1, 4, 3⟩, ⟨2, 1, 4⟩⟩⟩, Token.endOfInput ⟨2, 1, 4⟩],
    by decide +kernel, ?_, rfl, rfl⟩
  rw [hreturns]
  decide +kernel

end Source

end Curly
