import Curly.Tree.Layout
import Mathlib.Data.List.Basic

/-!
# Indentation

What indenting does to a text without empty lines: `Layout.indent` cuts it into lines, but the
outcome is the text with `unit` put in after each line end (`deepen`), and once more in front. Of
texts with an empty line after each, it is the same for each of them and no empty line is left
(`indent_append`).
-/

namespace Curly

namespace Text

variable {α : Type} [DecidableEq α] (sep : α)

theorem pieces_cons_self (xs : List α) : pieces sep (sep :: xs) = [] :: pieces sep xs := by
  simp [pieces]

theorem pieces_ne_nil (xs : List α) : pieces sep xs ≠ [] := by
  cases xs with
  | nil => exact List.cons_ne_nil _ _
  | cons x xs =>
    rw [pieces, List.foldr_cons]
    split
    · exact List.cons_ne_nil _ _
    · split <;> exact List.cons_ne_nil _ _

/-- A character that is no separator joins the first piece. -/
theorem pieces_cons_of_ne {sep x : α} (h : x ≠ sep) (xs : List α) :
    ∃ piece rest, pieces sep xs = piece :: rest ∧
      pieces sep (x :: xs) = (x :: piece) :: rest := by
  obtain ⟨piece, rest, hxs⟩ := List.exists_cons_of_ne_nil (pieces_ne_nil sep xs)
  refine ⟨piece, rest, hxs, ?_⟩
  rw [pieces] at hxs
  rw [pieces, List.foldr_cons, if_neg h, hxs]

/-- **A text is cut at each of its separators.** -/
theorem pieces_append (xs ys : List α) :
    pieces sep (xs ++ sep :: ys) = pieces sep xs ++ pieces sep ys := by
  induction xs with
  | nil => exact pieces_cons_self sep ys
  | cons x xs ih =>
    by_cases h : x = sep
    · rw [h, List.cons_append, pieces_cons_self, pieces_cons_self, ih, List.cons_append]
    · obtain ⟨piece, rest, hxs, hx⟩ := pieces_cons_of_ne h xs
      obtain ⟨piece', rest', hall, hx'⟩ := pieces_cons_of_ne h (xs ++ sep :: ys)
      rw [ih, hxs, List.cons_append] at hall
      obtain ⟨rfl, rfl⟩ := List.cons.inj hall
      rw [List.cons_append, hx', hx, List.cons_append]

theorem pieces_of_not_mem {sep : α} {xs : List α} (h : sep ∉ xs) : pieces sep xs = [xs] := by
  induction xs with
  | nil => rfl
  | cons x xs ih =>
    obtain ⟨hx, hxs⟩ := not_or.1 (List.mem_cons.not.1 h)
    obtain ⟨piece, rest, hpieces, hcons⟩ := pieces_cons_of_ne (Ne.symm hx) xs
    rw [ih hxs] at hpieces
    obtain ⟨rfl, rfl⟩ := List.cons.inj hpieces
    exact hcons

/-- Where two texts meet, the last piece of the one goes on with the first of the other. -/
theorem exists_pieces_append (xs ys : List α) :
    ∃ before last first after, pieces sep xs = before ++ [last] ∧
      pieces sep ys = first :: after ∧
      pieces sep (xs ++ ys) = before ++ (last ++ first) :: after := by
  induction xs with
  | nil =>
    obtain ⟨first, after, hys⟩ := List.exists_cons_of_ne_nil (pieces_ne_nil sep ys)
    exact ⟨[], [], first, after, rfl, hys, hys⟩
  | cons x xs ih =>
    obtain ⟨before, last, first, after, hxs, hys, hall⟩ := ih
    by_cases h : x = sep
    · refine ⟨[] :: before, last, first, after, ?_, hys, ?_⟩
      · rw [h, pieces_cons_self, hxs, List.cons_append]
      · rw [h, List.cons_append, pieces_cons_self, hall, List.cons_append]
    · obtain ⟨piece, rest, hpieces, hx⟩ := pieces_cons_of_ne h xs
      obtain ⟨piece', rest', hpieces', hx'⟩ := pieces_cons_of_ne h (xs ++ ys)
      rw [hxs] at hpieces
      rw [hall] at hpieces'
      cases before with
      | nil =>
        obtain ⟨rfl, rfl⟩ := List.cons.inj hpieces
        obtain ⟨rfl, rfl⟩ := List.cons.inj hpieces'
        exact ⟨[], x :: last, first, after, hx, hys, hx'⟩
      | cons line before =>
        obtain ⟨rfl, rfl⟩ := List.cons.inj hpieces
        obtain ⟨rfl, rfl⟩ := List.cons.inj hpieces'
        exact ⟨(x :: line) :: before, last, first, after, hx, hys, hx'⟩

theorem mem_of_mem_pieces {sep c : α} {xs piece : List α} (hpiece : piece ∈ pieces sep xs)
    (hc : c ∈ piece) : c ∈ xs := by
  induction xs generalizing piece with
  | nil =>
    obtain rfl : piece = [] := List.mem_singleton.1 hpiece
    exact hc
  | cons x xs ih =>
    by_cases h : x = sep
    · rw [h, pieces_cons_self] at hpiece
      rcases List.mem_cons.1 hpiece with rfl | hpiece
      · cases hc
      · exact List.mem_cons_of_mem _ (ih hpiece hc)
    · obtain ⟨first, rest, hxs, hx⟩ := pieces_cons_of_ne h xs
      rw [hx] at hpiece
      rcases List.mem_cons.1 hpiece with rfl | hpiece
      · rcases List.mem_cons.1 hc with rfl | hc
        · exact List.mem_cons_self
        · exact List.mem_cons_of_mem _ (ih (by rw [hxs]; exact List.mem_cons_self) hc)
      · exact List.mem_cons_of_mem _ (ih (by rw [hxs]; exact List.mem_cons_of_mem _ hpiece) hc)

/-- Before the last line end, the lines of a text without carriage returns are its pieces. -/
theorem lines_append {cs : List Char} (h : '\r' ∉ cs) (rest : List Char) :
    lines (cs ++ '\n' :: rest) = pieces '\n' cs ++ lines rest := by
  have hpieces : (pieces '\n' cs).map (dropEnd '\r') = pieces '\n' cs := by
    refine (List.map_congr_left fun piece hpiece => ?_).trans (List.map_id _)
    rw [dropEnd, if_neg]
    · rfl
    · intro hlast
      exact h (mem_of_mem_pieces hpiece (List.mem_of_getLast? hlast))
  simp only [lines, linesBy]
  rw [pieces_append, List.dropLast_append_of_ne_nil (pieces_ne_nil _ _), List.map_append, hpieces,
    List.getLast?_append_of_ne_nil _ (pieces_ne_nil _ _), List.append_assoc]

end Text

namespace Layout

variable {unit cs ds : List Char}

/-- The text with every line but the first one level further in. -/
def deepen (unit cs : List Char) : List Char :=
  cs.flatMap fun c => if c = '\n' then '\n' :: unit else [c]

@[simp] theorem deepen_nil : deepen unit [] = [] := rfl

@[simp] theorem deepen_append : deepen unit (cs ++ ds) = deepen unit cs ++ deepen unit ds :=
  List.flatMap_append

theorem deepen_newline : deepen unit ('\n' :: cs) = '\n' :: (unit ++ deepen unit cs) := by
  simp [deepen]

theorem deepen_of_not_mem (h : '\n' ∉ cs) : deepen unit cs = cs := by
  induction cs with
  | nil => rfl
  | cons c cs ih =>
    obtain ⟨hc, hcs⟩ := not_or.1 (List.mem_cons.not.1 h)
    rw [deepen, List.flatMap_cons, if_neg (Ne.symm hc), ← deepen, ih hcs, List.singleton_append]

/-- Every line of the text is put one level further in. -/
theorem flatMap_pieces (cs : List Char) :
    (Text.pieces '\n' cs).flatMap (fun line => unit ++ line ++ ['\n']) =
      unit ++ deepen unit cs ++ ['\n'] := by
  induction cs with
  | nil => simp [Text.pieces]
  | cons c cs ih =>
    by_cases h : c = '\n'
    · rw [h, Text.pieces_cons_self, List.flatMap_cons, ih, deepen_newline]
      simp
    · obtain ⟨piece, rest, hcs, hc⟩ := Text.pieces_cons_of_ne h cs
      have hdeepen : deepen unit (c :: cs) = c :: deepen unit cs := by simp [deepen, h]
      rw [hcs, List.flatMap_cons] at ih
      have htail : piece ++ ['\n'] ++ rest.flatMap (fun line => unit ++ line ++ ['\n']) =
          deepen unit cs ++ ['\n'] := by simpa using ih
      rw [hc, List.flatMap_cons, hdeepen]
      simpa using htail

/-- A text that has no empty line, begins and ends inside a line, and has no carriage return. -/
structure Compact (cs : List Char) : Prop where
  lines : ∀ line ∈ Text.pieces '\n' cs, line ≠ []
  noReturn : '\r' ∉ cs

/-- **Indenting a text with an empty line after it** puts its lines one level further in and takes
the empty line out. -/
theorem indent_append (h : Compact cs) (rest : List Char) :
    indent unit (cs ++ "\n\n".toList ++ rest) =
      unit ++ deepen unit cs ++ ['\n'] ++ indent unit rest := by
  have hsplit : cs ++ "\n\n".toList ++ rest = cs ++ '\n' :: ([] ++ '\n' :: rest) := by simp
  have hfilter : (Text.pieces '\n' cs).filter (fun line => !line.isEmpty) =
      Text.pieces '\n' cs := by
    refine List.filter_eq_self.2 fun line hline => ?_
    simpa using h.lines line hline
  rw [hsplit, indent, Text.lines_append h.noReturn, Text.lines_append List.not_mem_nil,
    List.filter_append, hfilter, List.flatMap_append, flatMap_pieces]
  simp [indent, Text.pieces]

theorem indent_nil : indent unit [] = [] := by
  simp [indent, Text.lines, Text.linesBy, Text.pieces]

/-! ## Compact texts -/

theorem compact_of_not_mem (hne : cs ≠ []) (h : '\n' ∉ cs) (hr : '\r' ∉ cs) : Compact cs := by
  refine ⟨?_, hr⟩
  rw [Text.pieces_of_not_mem h]
  simpa using hne

theorem Compact.newline (hcs : Compact cs) (hds : Compact ds) : Compact (cs ++ '\n' :: ds) := by
  constructor
  · rw [Text.pieces_append]
    intro line hline
    rcases List.mem_append.1 hline with hline | hline
    · exact hcs.lines line hline
    · exact hds.lines line hline
  · intro hmem
    rcases List.mem_append.1 hmem with hmem | hmem
    · exact hcs.noReturn hmem
    · rcases List.mem_cons.1 hmem with heq | hmem
      · exact absurd heq (by decide)
      · exact hds.noReturn hmem

theorem Compact.append (hcs : Compact cs) (hds : Compact ds) : Compact (cs ++ ds) := by
  constructor
  · obtain ⟨before, last, first, after, h, h', hall⟩ := Text.exists_pieces_append '\n' cs ds
    intro line hline
    rw [hall] at hline
    rcases List.mem_append.1 hline with hline | hline
    · exact hcs.lines line (by rw [h]; exact List.mem_append_left _ hline)
    · rcases List.mem_cons.1 hline with rfl | hline
      · have hlast := hcs.lines last (by rw [h]; simp)
        exact List.append_ne_nil_of_left_ne_nil hlast first
      · exact hds.lines line (by rw [h']; exact List.mem_cons_of_mem _ hline)
  · intro hmem
    rcases List.mem_append.1 hmem with hmem | hmem
    · exact hcs.noReturn hmem
    · exact hds.noReturn hmem

/-- Blanks in front of the first line. -/
theorem Compact.indented {blanks : List Char} (h : '\n' ∉ blanks) (hr : '\r' ∉ blanks)
    (hcs : Compact cs) : Compact (blanks ++ cs) := by
  by_cases hne : blanks = []
  · rw [hne]
    exact hcs
  · exact (compact_of_not_mem hne h hr).append hcs

end Layout

end Curly
