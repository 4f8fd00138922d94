import Curly.Diagnostic
import Curly.Proofs.Text.Lookup

/-!
# The marks of a diagnostic

Of a text that is `before ++ covered ++ rest`, a diagnostic about `covered` shows the line on which
`covered` starts, with a blank below each character of the line before it and a mark below each
character of its first line (`Diagnostic.render_of_split`).
-/

namespace Curly

variable {before covered rest cs ds : List Char}

namespace Text

/-- What comes before the first line feed of a text, without a carriage return directly before it,
and all of a text without line feeds. -/
def firstLine (cs : List Char) : List Char :=
  if '\n' ∈ cs then dropEnd '\r' (cs.takeWhile (· ≠ '\n')) else cs

theorem dropEnd_append {last : Char} (h : ds ≠ []) :
    dropEnd last (cs ++ ds) = cs ++ dropEnd last ds := by
  rw [dropEnd, dropEnd, List.getLast?_append_of_ne_nil _ h, List.dropLast_append_of_ne_nil h]
  split <;> rfl

theorem length_dropEnd_le (last : Char) (cs : List Char) :
    (dropEnd last cs).length ≤ cs.length := by
  rw [dropEnd]
  split
  · rw [List.length_dropLast]
    exact Nat.sub_le _ _
  · exact Nat.le_refl _

/-- Leaving out a last character is the same at the end of a longer text. -/
theorem length_dropEnd_append (last : Char) (cs ds : List Char) :
    (dropEnd last (cs ++ ds)).length - cs.length = (dropEnd last ds).length := by
  by_cases h : ds = []
  · have := length_dropEnd_le last cs
    rw [h, List.append_nil, show (dropEnd last []).length = 0 from rfl]
    omega
  · rw [dropEnd_append h, List.length_append, Nat.add_sub_cancel_left]

theorem takeWhile_append_of_mem (h : '\n' ∈ cs) :
    (cs ++ ds).takeWhile (· ≠ '\n') = cs.takeWhile (· ≠ '\n') := by
  obtain ⟨front, back, rfl, hfront⟩ := List.eq_append_cons_of_mem h
  have hpass : ∀ c ∈ front, decide (c ≠ '\n') := fun c hc => by
    rw [decide_eq_true_eq]
    rintro rfl
    exact hfront hc
  rw [List.append_assoc, List.takeWhile_append_of_pos hpass, List.takeWhile_append_of_pos hpass]
  rfl

theorem rtakeWhile_append_of_not_mem (h : '\n' ∉ ds) :
    (cs ++ ds).rtakeWhile (· ≠ '\n') = cs.rtakeWhile (· ≠ '\n') ++ ds := by
  have hpass : ∀ c ∈ ds.reverse, decide (c ≠ '\n') := fun c hc => by
    rw [decide_eq_true_eq]
    rintro rfl
    exact h (List.mem_reverse.1 hc)
  rw [List.rtakeWhile, List.reverse_append, List.takeWhile_append_of_pos hpass,
    List.reverse_append, List.reverse_reverse]
  rfl

end Text

namespace Diagnostic

variable {src : Source} {d : Diagnostic}

/-- **As many marks** as there are characters on the first line of what is covered, and one at
least. -/
theorem markCount_of_split (h : src.chars = before ++ covered ++ rest) :
    markCount ⟨Position.origin.after before, Position.origin.after (before ++ covered)⟩
      (src.lineText (1 + before.count '\n')) = max 1 (Text.firstLine covered).length := by
  have hfirst : max (1 + (before.rtakeWhile (· ≠ '\n')).length) 1 =
      1 + (before.rtakeWhile (· ≠ '\n')).length := by omega
  rw [Position.origin_after, Position.origin_after, markCount, hfirst, Text.firstLine,
    List.count_append]
  by_cases hmem : '\n' ∈ covered
  · have hlines : 1 + (before.count '\n' + covered.count '\n') ≠ 1 + before.count '\n' := by
      have := List.count_pos_iff.2 hmem
      omega
    rw [List.append_assoc] at h
    obtain ⟨above, hline, -, hcount⟩ := Text.exists_lineOf_byte h
    have hsegment := hline.segment
    rw [hcount, Text.takeWhile_append_of_mem hmem] at hsegment
    have hlength := Text.length_dropEnd_append '\r' (before.rtakeWhile (· ≠ '\n'))
      (covered.takeWhile (· ≠ '\n'))
    rw [if_neg hlines, if_pos hmem, Nat.add_comm 1 (before.count '\n'), Source.lineText_succ,
      hsegment, Option.getD_some, String.length_ofList, ← hlength]
    omega
  · rw [List.count_eq_zero_of_not_mem hmem, Nat.add_zero, if_pos rfl, if_neg hmem,
      Text.rtakeWhile_append_of_not_mem hmem, List.length_append]
    dsimp only
    omega

/-- **A diagnostic shows the line on which what it covers starts**, and marks what it covers of
it. -/
theorem render_of_split (h : src.chars = before ++ covered ++ rest)
    (hspan : d.span = ⟨Position.origin.after before, Position.origin.after (before ++ covered)⟩) :
    d.render src = "\n".intercalate
      ["  File " ++ src.name ++ ", line " ++ toString (1 + before.count '\n'),
        src.lineText (1 + before.count '\n'),
        String.ofList (List.replicate (before.rtakeWhile (· ≠ '\n')).length ' ' ++
          List.replicate (max 1 (Text.firstLine covered).length) '^'),
        d.message] := by
  have hline : d.span.start.line = 1 + before.count '\n' := by rw [hspan, Position.origin_after]
  have hcolumn : d.span.start.column - 1 = (before.rtakeWhile (· ≠ '\n')).length := by
    rw [hspan, Position.origin_after, Nat.add_sub_cancel_left]
  have hmarks : markCount d.span (src.lineText (1 + before.count '\n')) =
      max 1 (Text.firstLine covered).length := by
    rw [hspan, markCount_of_split h]
  rw [render, renderWith, marks, hline, hcolumn, hmarks]
  rfl

end Diagnostic

end Curly
