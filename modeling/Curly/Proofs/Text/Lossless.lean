import Curly.Proofs.Text.LineTable
import Mathlib.Data.List.Basic

/-!
# Lines and their ends

The texts of the lines, each with what ends it, put together are the text (`Source.hasLines_cut`).
What ends a line is a line feed, perhaps with a carriage return before it, and the end of the text
is to end the last line. But a carriage return at the end of the text is left out of the last line
as well, although no line feed comes after it: only texts without one there are the lines and their
ends (`Source.hasLines_iff`).
-/

namespace Curly

namespace Text

/-- What ends a line that a line feed comes after. -/
def lineEnd (line : List Char) : String :=
  if line.getLast? = some '\r' then "\r\n" else "\n"

theorem lineEnd_eq (line : List Char) : lineEnd line = "\n" ∨ lineEnd line = "\r\n" := by
  unfold lineEnd
  split
  · exact .inr rfl
  · exact .inl rfl

/-- The carriage return that is left out of a line. -/
def cutReturn (line : List Char) : String := if line.getLast? = some '\r' then "\r" else ""

/-- What is left out and the rest are the line. -/
theorem dropEnd_append_cutReturn (line : List Char) :
    dropEnd '\r' line ++ (cutReturn line).toList = line := by
  rw [dropEnd, cutReturn]
  split
  · next h =>
    obtain ⟨front, rfl⟩ := List.getLast?_eq_some_iff.1 h
    rw [List.dropLast_concat]
    rfl
  · exact List.append_nil line

theorem lineEnd_toList (line : List Char) :
    (lineEnd line).toList = (cutReturn line).toList ++ ['\n'] := by
  rw [lineEnd, cutReturn]
  split <;> rfl

/-- A text has a last line, and it ends in a carriage return just where the text does. -/
theorem exists_lastLine (cs : List Char) : ∃ above line, LineOf cs above line [] ∧
    above.count '\n' = cs.count '\n' ∧ cutReturn line = cutReturn cs := by
  obtain ⟨above, hline, -, hcount⟩ := exists_lineOf_byte (List.append_nil cs).symm
  rw [List.takeWhile_nil, List.append_nil, List.dropWhile_nil] at hline
  generalize cs.rtakeWhile (· ≠ '\n') = line at hline
  refine ⟨above, line, hline, hcount, ?_⟩
  rw [hline.split, List.append_nil, cutReturn, cutReturn, List.getLast?_append]
  rcases List.eq_nil_or_concat line with rfl | ⟨front, c, rfl⟩
  · rcases eq_nil_or_concat_newline hline.first with rfl | ⟨front, rfl⟩ <;> simp
  · rw [List.concat_eq_append, List.getLast?_concat]
    rfl

end Text

namespace Source

variable {src : Source}

/-- What there is to say about the lines of a text: how many there are, that no others have a text,
what they are, and that they are the text if each is ended by a line feed, perhaps after a carriage
return, and the last one by `cut`. -/
structure HasLines (src : Source) (cut : String) : Prop where
  count : src.lineCount = src.chars.count '\n' + 1
  outside : ∀ n, n = 0 ∨ src.lineCount < n → src.lineText n = ""
  /-- A carriage return before a line feed goes with it. -/
  ended : ∀ n, n + 1 < src.lineCount → (Text.segments src.chars)[n]?.map
    (fun line => String.ofList (Text.dropEnd '\r' line)) = some (src.lineText (n + 1))
  last : (Text.segments src.chars)[src.lineCount - 1]?.map String.ofList =
    some (src.lineText src.lineCount ++ cut)
  rejoined : ∃ ends : List String, ends.length + 1 = src.lineCount ∧
    (∀ e ∈ ends, e = "\n" ∨ e = "\r\n") ∧ src.text = String.join
      (List.zipWith (fun n e => src.lineText n ++ e) (List.range' 1 src.lineCount) (ends ++ [cut]))

theorem lineText_of_segment {n : Nat} {line : List Char}
    (h : (Text.segments src.chars)[n]? = some line) :
    src.lineText (n + 1) = String.ofList (Text.dropEnd '\r' line) := by
  rw [lineText_succ, h, Option.getD_some]

/-- All lines, as the pieces of the text between its line feeds. -/
theorem map_lineText (src : Source) : (List.range' 1 src.lineCount).map src.lineText =
    (Text.segments src.chars).map fun line => String.ofList (Text.dropEnd '\r' line) := by
  refine List.ext_getElem? fun n => ?_
  rw [List.getElem?_map, List.getElem?_map]
  by_cases hn : n < src.lineCount
  · have hlength : n < (Text.segments src.chars).length := by rwa [← lineCount_eq_length]
    obtain ⟨line, hline⟩ : ∃ line, (Text.segments src.chars)[n]? = some line :=
      ⟨_, List.getElem?_eq_getElem hlength⟩
    rw [List.getElem?_range' hn, hline, Option.map_some, Option.map_some, Nat.one_mul, Nat.add_comm,
      lineText_of_segment hline]
  · rw [List.getElem?_eq_none (by rw [List.length_range']; omega),
      List.getElem?_eq_none (by rw [← lineCount_eq_length]; omega)]
    rfl

/-- **The lines with their ends are the text.** -/
theorem rejoin {lines : List (List Char)} {last : List Char}
    (h : Text.segments src.chars = lines ++ [last]) :
    String.join (List.zipWith (fun n e => src.lineText n ++ e) (List.range' 1 src.lineCount)
      (lines.map Text.lineEnd ++ [Text.cutReturn last])) = src.text := by
  have hended : ∀ line : List Char, (String.ofList (Text.dropEnd '\r' line) ++
      Text.lineEnd line).toList = line ++ ['\n'] := by
    intro line
    rw [String.toList_append, String.toList_ofList, Text.lineEnd_toList, ← List.append_assoc,
      Text.dropEnd_append_cutReturn]
  have hlast : (String.ofList (Text.dropEnd '\r' last) ++ Text.cutReturn last).toList = last := by
    rw [String.toList_append, String.toList_ofList, Text.dropEnd_append_cutReturn]
  have hall := Text.flatMap_segments src.chars
  rw [h, List.flatMap_append, List.flatMap_singleton, ← List.append_assoc] at hall
  have hzip : List.zipWith (fun n e => src.lineText n ++ e) (List.range' 1 src.lineCount)
      (lines.map Text.lineEnd ++ [Text.cutReturn last]) =
        lines.map (fun line => String.ofList (Text.dropEnd '\r' line) ++ Text.lineEnd line) ++
          [String.ofList (Text.dropEnd '\r' last) ++ Text.cutReturn last] := by
    rw [← List.zipWith_map_left (g := (· ++ ·)), map_lineText, h, List.map_append,
      List.zipWith_append (by simp), List.zipWith_map, List.zipWith_self]
    rfl
  rw [← String.toList_inj, String.toList_join, hzip, List.flatMap_append, List.flatMap_singleton,
    hlast, List.flatMap_map]
  simp only [hended]
  exact List.append_cancel_right hall

/-- **What the lines are**, with the carriage return that the last one goes without. -/
theorem hasLines_cut (src : Source) : src.HasLines (Text.cutReturn src.chars) := by
  obtain ⟨above, line, hline, hcount, hcut⟩ := Text.exists_lastLine src.chars
  have hlength := src.lineCount_eq_length
  have hindex : src.lineCount - 1 = above.count '\n' := by rw [hcount, lineCount_eq]; rfl
  refine ⟨src.lineCount_eq, ?_, fun n hn => ?_, ?_, ?_⟩
  · rintro n (rfl | hn)
    · rfl
    · obtain ⟨m, rfl⟩ := Nat.exists_eq_succ_of_ne_zero (Nat.ne_of_gt (Nat.zero_lt_of_lt hn))
      rw [lineText_succ, List.getElem?_eq_none (by omega)]
      rfl
  · obtain ⟨line, hfound⟩ : ∃ line, (Text.segments src.chars)[n]? = some line :=
      ⟨_, List.getElem?_eq_getElem (by omega)⟩
    rw [hfound, Option.map_some, lineText_of_segment hfound]
  · have hcountEq : src.lineCount = above.count '\n' + 1 := by rw [hcount, lineCount_eq]
    rw [hindex, hline.segment, Option.map_some, hcountEq, lineText_of_segment hline.segment, ← hcut,
      Option.some.injEq, ← String.toList_inj, String.toList_append, String.toList_ofList,
      String.toList_ofList, Text.dropEnd_append_cutReturn]
  · obtain ⟨lines, last, hlines⟩ : ∃ lines last, Text.segments src.chars = lines ++ [last] := by
      rcases List.eq_nil_or_concat (Text.segments src.chars) with hnil | ⟨lines, last, hlines⟩
      · exact absurd hnil (Text.pieces_ne_nil _ _)
      · exact ⟨lines, last, by rw [hlines, List.concat_eq_append]⟩
    have hcountEq : lines.length + 1 = src.lineCount := by
      rw [hlength, hlines, List.length_append, List.length_singleton]
    have hlast : last = line := by
      have hfound := hline.segment
      rw [hlines, ← hindex, ← hcountEq, Nat.add_sub_cancel, List.getElem?_concat_length] at hfound
      exact Option.some.inj hfound
    refine ⟨lines.map Text.lineEnd, by rw [List.length_map, hcountEq], fun e he => ?_, ?_⟩
    · obtain ⟨ended, -, rfl⟩ := List.mem_map.1 he
      exact Text.lineEnd_eq ended
    · rw [← hcut, ← hlast, rejoin hlines]

theorem HasLines.unique {cut cut' : String} (h : src.HasLines cut) (h' : src.HasLines cut') :
    cut = cut' := by
  have hlast := h.last.symm.trans h'.last
  rw [Option.some.injEq, ← String.toList_inj, String.toList_append, String.toList_append] at hlast
  exact String.toList_inj.1 (List.append_cancel_left hlast)

/-- **Lines are lossless up to their ends**, with no more than a line feed and a carriage return
before it left out of any of them, just where no carriage return ends the text. There it is left
out of the last line. -/
theorem hasLines_iff (src : Source) :
    (src.HasLines "" ↔ src.chars.getLast? ≠ some '\r') ∧
      (src.chars.getLast? = some '\r' → src.HasLines "\r") := by
  have hcut := src.hasLines_cut
  by_cases hreturn : src.chars.getLast? = some '\r'
  · rw [Text.cutReturn, if_pos hreturn] at hcut
    refine ⟨iff_of_false (fun h => ?_) (not_not.2 hreturn), fun _ => hcut⟩
    exact absurd (h.unique hcut) (by decide)
  · rw [Text.cutReturn, if_neg hreturn] at hcut
    exact ⟨iff_of_true hcut hreturn, fun h => absurd h hreturn⟩

/-- A carriage return at the end of a text is lost. -/
theorem not_hasLines_return : ¬ (⟨"a", "a\r"⟩ : Source).HasLines "" := by
  intro h
  have hlast := h.last
  have htext : (⟨"a", "a\r"⟩ : Source).lineText (⟨"a", "a\r"⟩ : Source).lineCount = "a" := by
    decide +kernel
  have hsegment : (Text.segments (⟨"a", "a\r"⟩ : Source).chars)[
      (⟨"a", "a\r"⟩ : Source).lineCount - 1]? = some ['a', '\r'] := by
    decide +kernel
  rw [htext, hsegment] at hlast
  revert hlast
  decide

end Source

end Curly
