import Curly.Proofs.Layout.Indent
import Curly.Proofs.Text.Offset
import Mathlib.Data.List.DropRight

/-!
# Looking lines up

A line stands between the line feed before it and the one after it (`LineOf`). The line table has
the byte where it starts (`LineOf.start`) at the place where the line is among the pieces of the
text between its line feeds (`LineOf.segment`), so the lines that are cut out at these bytes are
these pieces (`Source.line?_eq_segment`). Halving the table finds as many lines as start up to a
byte, one more than there are line feeds before it (`partitionPoint_lineStarts`).
-/

namespace Curly

variable {cs ds above line below pre post : List Char} {offset n : Nat}

namespace Text

/-! ## Halving -/

section Halving

variable {α : Type} {p : α → Bool} {front back : List α}

/-- Halving an array that starts with the elements that `p` holds of ends after these. -/
theorem search_eq {xs : Array α} {lo hi : Nat} {bound : hi ≤ xs.size}
    (hxs : xs = (front ++ back).toArray) (hfront : ∀ x ∈ front, p x) (hback : ∀ x ∈ back, ¬ p x)
    (hlo : lo ≤ front.length) (hhi : front.length ≤ hi) :
    search p xs lo hi bound = front.length := by
  have holds : ∀ i, ∀ h : i < xs.size, p xs[i] ↔ i < front.length := by
    subst hxs
    intro i h
    rw [List.getElem_toArray, List.getElem_append]
    split
    · exact iff_of_true (hfront _ (List.getElem_mem _)) ‹_›
    · exact iff_of_false (hback _ (List.getElem_mem _)) ‹_›
  rw [search]
  split
  · next hlt =>
    dsimp only
    split
    · next hp =>
      have hmid := (holds _ (by omega)).1 hp
      exact search_eq hxs hfront hback hmid hhi
    · next hp =>
      have hmid := mt (holds _ (by omega)).2 hp
      exact search_eq hxs hfront hback hlo (by omega)
  · omega
  termination_by hi - lo

/-- **The elements that `p` holds of are counted by halving**, where they come first. -/
theorem partitionPoint_append (hfront : ∀ x ∈ front, p x) (hback : ∀ x ∈ back, ¬ p x) :
    partitionPoint p (front ++ back).toArray = front.length :=
  search_eq rfl hfront hback (Nat.zero_le _) (by simp)

end Halving

/-! ## The table -/

theorem startsAfter_append (offset : Nat) (cs ds : List Char) :
    startsAfter offset (cs ++ ds) =
      startsAfter offset cs ++ startsAfter (offset + byteLength cs) ds := by
  induction cs generalizing offset with
  | nil => rfl
  | cons c cs ih =>
    simp only [List.cons_append, startsAfter, ih, byteLength_cons, Nat.add_assoc]
    split <;> rfl

theorem length_startsAfter (offset : Nat) (cs : List Char) :
    (startsAfter offset cs).length = cs.count '\n' := by
  induction cs generalizing offset with
  | nil => rfl
  | cons c cs ih =>
    by_cases hc : c = '\n'
    · simp [startsAfter, hc, ih]
    · simp [startsAfter, hc, ih]

/-- Lines start behind the first byte and up to the end of the text. -/
theorem bounds_of_mem_startsAfter (h : n ∈ startsAfter offset cs) :
    offset < n ∧ n ≤ offset + byteLength cs := by
  induction cs generalizing offset with
  | nil => cases h
  | cons c cs ih =>
    have hpos := c.utf8Size_pos
    have hlater : n ∈ startsAfter (offset + c.utf8Size) cs →
        offset < n ∧ n ≤ offset + byteLength (c :: cs) := by
      intro hmem
      have hbounds := ih hmem
      rw [byteLength_cons]
      omega
    simp only [startsAfter] at h
    split at h
    · rcases List.mem_cons.1 h with rfl | hmem
      · rw [byteLength_cons]
        omega
      · exact hlater hmem
    · exact hlater h

/-- One line more than there are line feeds. -/
theorem size_lineStarts (cs : List Char) : (lineStarts cs).size = cs.count '\n' + 1 := by
  rw [lineStarts, List.size_toArray, List.length_cons, length_startsAfter]

/-- **As many lines start up to a byte** as there are line feeds before it, and one. -/
theorem partitionPoint_lineStarts (cs ds : List Char) :
    partitionPoint (· ≤ byteLength cs) (lineStarts (cs ++ ds)) = cs.count '\n' + 1 := by
  rw [lineStarts, startsAfter_append, ← List.cons_append, partitionPoint_append, List.length_cons,
    length_startsAfter]
  · intro start hstart
    rw [decide_eq_true_eq]
    rcases List.mem_cons.1 hstart with rfl | hmem
    · exact Nat.zero_le _
    · have := (bounds_of_mem_startsAfter hmem).2
      omega
  · intro start hstart
    have := (bounds_of_mem_startsAfter hstart).1
    rw [decide_eq_true_eq]
    omega

/-! ## Lines -/

/-- The text `line` is a line of `cs`: `above` is all that comes before it, and `below` what comes
after it, its line feed included. -/
structure LineOf (cs above line below : List Char) : Prop where
  split : cs = above ++ line ++ below
  oneLine : '\n' ∉ line
  /-- It starts the text, or a line feed comes before it. -/
  first : ∀ c ∈ above.getLast?, c = '\n'
  /-- It ends the text, or a line feed comes after it. -/
  last : ∀ c ∈ below.head?, c = '\n'

/-- Where all lines end, the text is empty or a line feed comes last. -/
theorem eq_nil_or_concat_newline (h : ∀ c ∈ cs.getLast?, c = '\n') :
    cs = [] ∨ ∃ ds, cs = ds ++ ['\n'] := by
  rcases List.eq_nil_or_concat cs with hcs | ⟨ds, c, hcs⟩
  · exact .inl hcs
  · rw [List.concat_eq_append] at hcs
    obtain rfl := h c (by simp [hcs])
    exact .inr ⟨ds, hcs⟩

/-- After whole lines the next line starts. -/
theorem getElem?_lineStarts (h : ∀ c ∈ cs.getLast?, c = '\n') (ds : List Char) :
    (lineStarts (cs ++ ds))[cs.count '\n']? = some (byteLength cs) := by
  have hinside : cs.count '\n' < (0 :: startsAfter 0 cs).length := by
    rw [List.length_cons, length_startsAfter]
    exact Nat.lt_succ_self _
  rw [lineStarts, List.getElem?_toArray, startsAfter_append, ← List.cons_append,
    List.getElem?_append_left hinside]
  rcases eq_nil_or_concat_newline h with rfl | ⟨above, rfl⟩
  · rfl
  · rw [startsAfter_append, List.count_append, List.count_singleton_self, List.getElem?_cons_succ,
      List.getElem?_append_right (length_startsAfter _ _).le, length_startsAfter, Nat.sub_self,
      byteLength_append, Nat.zero_add]
    rfl

theorem length_segments (cs : List Char) : (segments cs).length = cs.count '\n' + 1 := by
  induction cs with
  | nil => rfl
  | cons c cs ih =>
    by_cases hc : c = '\n'
    · rw [hc, segments, pieces_cons_self, List.length_cons, ← segments, ih, List.count_cons_self]
    · obtain ⟨piece, rest, hcs, hall⟩ := pieces_cons_of_ne hc cs
      rw [segments] at ih ⊢
      rw [hall, List.count_cons_of_ne hc, ← ih, hcs, List.length_cons, List.length_cons]

/-- With a line feed after each of them, the pieces of a text are the text and a line feed. -/
theorem flatMap_segments (cs : List Char) :
    (segments cs).flatMap (· ++ ['\n']) = cs ++ ['\n'] := by
  have hdeepen : Layout.deepen [] cs = cs := by
    have hone : ∀ c : Char, (if c = '\n' then ['\n'] else [c]) = [c] := by
      intro c
      split
      next h => rw [h]
      next => rfl
    simp [Layout.deepen, hone]
  have hpieces : _ = [] ++ Layout.deepen [] cs ++ ['\n'] := Layout.flatMap_pieces cs
  rwa [hdeepen] at hpieces

namespace LineOf

/-- The table has the byte where the line starts. -/
theorem start (h : LineOf cs above line below) :
    (lineStarts cs)[above.count '\n']? = some (byteLength above) := by
  rw [h.split, List.append_assoc]
  exact getElem?_lineStarts h.first _

/-- The next line starts after the line feed, if there is one. -/
theorem next (h : LineOf cs above line below) :
    (below = [] ∧ (lineStarts cs)[above.count '\n' + 1]? = none) ∨
      (lineStarts cs)[above.count '\n' + 1]? = some (byteLength (above ++ line) + 1) := by
  have hcount : (above ++ line).count '\n' = above.count '\n' := by
    rw [List.count_append, List.count_eq_zero_of_not_mem h.oneLine, Nat.add_zero]
  rcases below with _ | ⟨c, below⟩
  · refine .inl ⟨rfl, Array.getElem?_eq_none ?_⟩
    rw [size_lineStarts, h.split, List.append_nil, hcount]
  · obtain rfl := h.last c rfl
    right
    have hsplit : cs = (above ++ line ++ ['\n']) ++ below := by
      rw [h.split, List.append_assoc _ ['\n'], List.singleton_append]
    have hends : ∀ c ∈ (above ++ line ++ ['\n']).getLast?, c = '\n' := by simp
    have hnext := getElem?_lineStarts hends below
    rw [← hsplit, List.count_append, List.count_singleton_self, hcount,
      byteLength_append _ ['\n']] at hnext
    exact hnext

/-- The line is one of the pieces of the text between its line feeds. -/
theorem segment (h : LineOf cs above line below) :
    (segments cs)[above.count '\n']? = some line := by
  have hline : ∃ pieces, segments (line ++ below) = line :: pieces := by
    rcases below with _ | ⟨c, below⟩
    · exact ⟨[], by rw [List.append_nil, segments, pieces_of_not_mem h.oneLine]⟩
    · obtain rfl := h.last c rfl
      exact ⟨_, by rw [segments, pieces_append, pieces_of_not_mem h.oneLine]; rfl⟩
  obtain ⟨pieces, hpieces⟩ := hline
  rw [h.split, List.append_assoc]
  rcases eq_nil_or_concat_newline h.first with rfl | ⟨front, rfl⟩
  · rw [List.nil_append, hpieces]
    rfl
  · rw [List.append_assoc, List.singleton_append, segments, pieces_append, ← segments, ← segments,
      hpieces, List.count_append, List.count_singleton_self, ← length_segments,
      List.getElem?_append_right (Nat.le_refl _), Nat.sub_self]
    rfl

end LineOf

/-- A byte is on a line that starts after the last line feed before it and goes on to the first one
after it. -/
theorem exists_lineOf_byte (h : cs = pre ++ post) : ∃ above,
    LineOf cs above (pre.rtakeWhile (· ≠ '\n') ++ post.takeWhile (· ≠ '\n'))
      (post.dropWhile (· ≠ '\n')) ∧
    pre = above ++ pre.rtakeWhile (· ≠ '\n') ∧ above.count '\n' = pre.count '\n' := by
  have hpre : pre = pre.rdropWhile (· ≠ '\n') ++ pre.rtakeWhile (· ≠ '\n') :=
    List.rdropWhile_append_rtakeWhile.symm
  have hpost : post = post.takeWhile (· ≠ '\n') ++ post.dropWhile (· ≠ '\n') :=
    List.takeWhile_append_dropWhile.symm
  have hfront : '\n' ∉ pre.rtakeWhile (· ≠ '\n') := fun hmem => by
    simpa using List.mem_rtakeWhile_imp hmem
  have hback : '\n' ∉ post.takeWhile (· ≠ '\n') := fun hmem => by
    simpa using List.mem_takeWhile_imp hmem
  refine ⟨_, ⟨?_, ?_, ?_, ?_⟩, hpre, ?_⟩
  · rw [h, List.append_assoc, List.append_assoc, ← hpost, ← List.append_assoc, ← hpre]
  · rw [List.mem_append]
    exact not_or.2 ⟨hfront, hback⟩
  · intro c hc
    have hne : pre.rdropWhile (· ≠ '\n') ≠ [] := by
      intro hnil
      rw [hnil] at hc
      cases hc
    have hlast := List.rdropWhile_last_not _ _ hne
    rw [List.getLast?_eq_some_getLast hne] at hc
    rw [Option.some.inj hc] at hlast
    simpa using hlast
  · intro c hc
    have hnot := List.head?_dropWhile_not (· ≠ '\n') post
    rw [Option.mem_def.1 hc] at hnot
    simpa using hnot
  · conv_rhs => rw [hpre]
    rw [List.count_append, List.count_eq_zero_of_not_mem hfront, Nat.add_zero]

/-- A text has a start with any number of its line feeds. -/
theorem exists_count_eq (h : n ≤ cs.count '\n') : ∃ pre post, cs = pre ++ post ∧
    pre.count '\n' = n := by
  induction cs generalizing n with
  | nil => exact ⟨[], [], rfl, (Nat.le_zero.1 h).symm⟩
  | cons c cs ih =>
    rcases n with _ | n
    · exact ⟨[], c :: cs, rfl, rfl⟩
    by_cases hc : c = '\n'
    · subst hc
      rw [List.count_cons_self] at h
      obtain ⟨pre, post, rfl, hcount⟩ := ih (Nat.le_of_succ_le_succ h)
      exact ⟨'\n' :: pre, post, rfl, by rw [List.count_cons_self, hcount]⟩
    · rw [List.count_cons_of_ne hc] at h
      obtain ⟨pre, post, rfl, hcount⟩ := ih h
      exact ⟨c :: pre, post, rfl, by rw [List.count_cons_of_ne hc, hcount]⟩

/-- **A text has a line for each of its line feeds, and one more.** -/
theorem exists_lineOf (h : n ≤ cs.count '\n') :
    ∃ above line below, LineOf cs above line below ∧ above.count '\n' = n := by
  obtain ⟨pre, post, hsplit, hpre⟩ := exists_count_eq h
  obtain ⟨above, hline, -, hcount⟩ := exists_lineOf_byte hsplit
  exact ⟨above, _, _, hline, hcount.trans hpre⟩

end Text

/-! ## Lines of sources -/

namespace Source

variable {src : Source}

theorem lineCount_eq (src : Source) : src.lineCount = src.chars.count '\n' + 1 :=
  Text.size_lineStarts src.chars

theorem lineCount_eq_length (src : Source) : src.lineCount = (Text.segments src.chars).length := by
  rw [lineCount_eq, Text.length_segments]

/-- **A line is looked up where it stands.** -/
theorem line?_of_lineOf (h : Text.LineOf src.chars above line below) :
    src.line? (above.count '\n') = some line := by
  have hbetween : src.between? (Text.byteLength above) (Text.byteLength (above ++ line)) =
      some line := between?_eq_some_iff.2 ⟨above, below, h.split, rfl, rfl⟩
  have hstart : src.lineStarts[above.count '\n']? = some (Text.byteLength above) := h.start
  rw [line?, hstart]
  rcases h.next with ⟨rfl, hnext⟩ | hnext
  · have hend : src.byteLength = Text.byteLength (above ++ line) := by
      rw [byteLength_eq, h.split, List.append_nil]
    have hlast : src.lineStarts[above.count '\n' + 1]? = none := hnext
    rw [← hend] at hbetween
    simp only [hlast]
    exact hbetween
  · have hlater : src.lineStarts[above.count '\n' + 1]? = _ := hnext
    simp only [hlater]
    exact hbetween

/-- **The lines are the pieces of the text between its line feeds.** -/
theorem line?_eq_segment (src : Source) (n : Nat) :
    src.line? n = (Text.segments src.chars)[n]? := by
  by_cases hn : n ≤ src.chars.count '\n'
  · obtain ⟨above, line, below, hline, rfl⟩ := Text.exists_lineOf hn
    rw [line?_of_lineOf hline, hline.segment]
  · have hstart : src.lineStarts[n]? = none := Array.getElem?_eq_none (by
      have := src.lineCount_eq
      rw [lineCount] at this
      omega)
    rw [line?, hstart, List.getElem?_eq_none (by rw [Text.length_segments]; omega)]
    rfl

/-- The text of a line is its piece, without a carriage return at the end. -/
theorem lineText_succ (src : Source) (n : Nat) : src.lineText (n + 1) =
    String.ofList (Text.dropEnd '\r' ((Text.segments src.chars)[n]?.getD [])) := by
  rw [lineText, line?_eq_segment]

end Source

end Curly
