import Curly.Proofs.Diagnostic.Marks
import Curly.Proofs.Token.Fault
import Curly.Proofs.Tree.CorrectPrefix
import Curly.Proofs.Tree.Fault

/-!
# Diagnostics of errors

Every error covers a piece of the text: what could not be read, or nothing before the token that
is refused (`Source.exists_covers`). So it is shown with the line on which this piece starts, and
with marks below as much of it as is on that line (`SourceError.render_eq`).
-/

namespace Curly

open Text

variable {src : Source} {e : SourceError}

namespace Source

/-- The span covers `covered`, after `before`. -/
structure Covers (src : Source) (span : Span) (before covered after : List Char) : Prop where
  split : src.chars = before ++ covered ++ after
  span : span = ⟨Position.origin.after before, Position.origin.after (before ++ covered)⟩

theorem exists_covers_lexical {e : LexicalError} (h : src.tokens? = .error e) :
    ∃ before covered after, src.Covers e.span before covered after := by
  obtain ⟨front, rest, lexeme, hsplit, -, hreads⟩ := exists_fault h
  obtain ⟨covered, after, rfl, hspan⟩ := hreads.exists_covered
  refine ⟨front, covered, after, ?_, ?_⟩
  · rw [hsplit, List.append_assoc]
  · rw [hspan, Position.after_append]

/-- The tree's errors stand before a token, which starts between two characters. -/
theorem exists_covers_grammatical {e : GrammarError} {all : List Token}
    (htokens : src.tokens? = .ok all) (h : src.parse = .error (.grammatical e)) :
    ∃ before after, src.Covers e.span before [] after := by
  obtain ⟨ts, rfl, hcut⟩ := exists_of_tokens? htokens
  obtain ⟨r, hrun, rfl⟩ := (parse_eq_error_of_tokens? htokens e).1 h
  obtain ⟨t, ⟨before, after, hall, -⟩, hposition⟩ :=
    Builder.exists_position (hcut.lined rfl) hrun
  obtain ⟨front, back, hsplit, -, hstart, -⟩ := exists_front hcut hall
  refine ⟨front, back, ?_, ?_⟩
  · rw [List.append_nil, hsplit]
  · rw [GrammarError.span, hposition, hstart, List.append_nil]
    rfl

/-- **Every error covers a piece of the text**, the lexical ones what they are about and the others
nothing. -/
theorem exists_covers (h : src.parse = .error e) :
    ∃ before covered after, src.Covers e.span before covered after := by
  cases htokens : src.tokens? with
  | error fault =>
    rw [parse, htokens] at h
    cases h
    exact exists_covers_lexical htokens
  | ok ts =>
    rw [parse_of_tokens? htokens] at h
    cases e with
    | lexical fault => cases hbuild : src.build ts <;> simp [hbuild, Except.mapError] at h
    | grammatical fault =>
      rw [← parse_of_tokens? htokens] at h
      obtain ⟨before, after, hcovers⟩ := exists_covers_grammatical htokens h
      exact ⟨before, [], after, hcovers⟩

end Source

/-- **Diagnostics point at the error.** The span of an error runs from one byte between two
characters to another, or to the same one. The diagnostic shows the line of the first of them, with
a blank below each character before the error and a mark below each of its own, up to the end of the
line, and one mark at least. -/
theorem SourceError.render_eq (h : src.parse = .error e) : ∃ before covered after,
    src.chars = before ++ covered ++ after ∧
    e.span.start.offset = byteLength before ∧
    e.span.stop.offset = byteLength (before ++ covered) ∧
    e.span.start.offset ≤ e.span.stop.offset ∧ e.span.stop.offset ≤ src.byteLength ∧
    e.render src = "\n".intercalate
      ["  File " ++ src.name ++ ", line " ++ toString (1 + before.count '\n'),
        src.lineText (1 + before.count '\n'),
        String.ofList (List.replicate (before.rtakeWhile (· ≠ '\n')).length ' ' ++
          List.replicate (max 1 (firstLine covered).length) '^'),
        e.message] := by
  obtain ⟨before, covered, after, hsplit, hspan⟩ := Source.exists_covers h
  have hstart : e.span.start.offset = byteLength before := by
    rw [hspan, Position.origin_after]
  have hstop : e.span.stop.offset = byteLength (before ++ covered) := by
    rw [hspan, Position.origin_after, Position.origin_after]
  refine ⟨before, covered, after, hsplit, hstart, hstop, ?_, ?_, ?_⟩
  · rw [hstart, hstop, byteLength_append]
    exact Nat.le_add_right _ _
  · rw [hstop, Source.byteLength_eq, hsplit, byteLength_append _ after]
    exact Nat.le_add_right _ _
  · exact Diagnostic.render_of_split hsplit hspan

theorem SourceError.render_eq_openTemplate : ∃ before covered after,
    (⟨"a", "'é' \"a\r\nb"⟩ : Source).chars = before ++ covered ++ after ∧
    5 = byteLength before ∧ 10 = byteLength (before ++ covered) ∧ 5 ≤ 10 ∧
    10 ≤ (⟨"a", "'é' \"a\r\nb"⟩ : Source).byteLength ∧
    (SourceError.lexical ⟨.unterminatedTemplate, ⟨⟨1, 5, 5⟩, ⟨2, 2, 10⟩⟩⟩).render
        ⟨"a", "'é' \"a\r\nb"⟩ = "\n".intercalate
      ["  File " ++ "a" ++ ", line " ++ toString (1 + before.count '\n'),
        (⟨"a", "'é' \"a\r\nb"⟩ : Source).lineText (1 + before.count '\n'),
        String.ofList (List.replicate (before.rtakeWhile (· ≠ '\n')).length ' ' ++
          List.replicate (max 1 (firstLine covered).length) '^'),
        "unterminated template literal"] :=
  have h : (⟨"a", "'é' \"a\r\nb"⟩ : Source).parse =
      .error (.lexical ⟨.unterminatedTemplate, ⟨⟨1, 5, 5⟩, ⟨2, 2, 10⟩⟩⟩) := by decide +kernel
  render_eq h

end Curly
