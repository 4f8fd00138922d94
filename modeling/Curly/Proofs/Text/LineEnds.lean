import Curly.Diagnostic
import Curly.Proofs.Text.LineTable

/-!
# Line ends of two characters

A text in which a carriage return comes before every line feed has the lines that it had without
them (`Source.lineText_withReturns`), and what has been read of it ends on the same line in the
same column (`Position.Beside.after`). So a message about it is shown alike
(`Diagnostic.render_withReturns`).
-/

namespace Curly

variable {c : Char} {cs : List Char}

namespace Text

/-- A text with a carriage return before every line feed. -/
def withReturns (cs : List Char) : List Char :=
  cs.flatMap fun c => if c = '\n' then ['\r', '\n'] else [c]

/-- A text without its carriage returns. -/
def withoutReturns (cs : List Char) : List Char := cs.filter (· ≠ '\r')

@[simp] theorem withReturns_append (cs ds : List Char) :
    withReturns (cs ++ ds) = withReturns cs ++ withReturns ds := List.flatMap_append

theorem withReturns_newline (cs : List Char) :
    withReturns ('\n' :: cs) = '\r' :: '\n' :: withReturns cs := rfl

theorem withReturns_cons_of_ne (h : c ≠ '\n') (cs : List Char) :
    withReturns (c :: cs) = c :: withReturns cs := by
  rw [withReturns, List.flatMap_cons, if_neg h]
  rfl

theorem withReturns_of_not_mem (h : '\n' ∉ cs) : withReturns cs = cs := by
  induction cs with
  | nil => rfl
  | cons c cs ih =>
    obtain ⟨hc, hcs⟩ := List.ne_and_not_mem_of_not_mem_cons h
    rw [withReturns_cons_of_ne (Ne.symm hc), ih hcs]

/-- Carriage returns are all that is put in. -/
theorem mem_withReturns (h : c ≠ '\r') : c ∈ withReturns cs ↔ c ∈ cs := by
  induction cs with
  | nil => rfl
  | cons d cs ih =>
    by_cases hd : d = '\n'
    · rw [hd, withReturns_newline]
      simp [h, ih]
    · rw [withReturns_cons_of_ne hd, List.mem_cons, ih, List.mem_cons]

@[simp] theorem withoutReturns_append (cs ds : List Char) :
    withoutReturns (cs ++ ds) = withoutReturns cs ++ withoutReturns ds := List.filter_append ..

theorem withoutReturns_of_not_mem (h : '\r' ∉ cs) : withoutReturns cs = cs := by
  refine List.filter_eq_self.2 fun c hc => ?_
  rw [decide_eq_true_eq]
  rintro rfl
  exact h hc

/-- Taking out what was put in gives the text back. -/
theorem withoutReturns_withReturns (h : '\r' ∉ cs) : withoutReturns (withReturns cs) = cs := by
  induction cs with
  | nil => rfl
  | cons c cs ih =>
    obtain ⟨hc, hcs⟩ := List.ne_and_not_mem_of_not_mem_cons h
    by_cases hn : c = '\n'
    · rw [hn, withReturns_newline]
      exact congrArg ('\n' :: ·) (ih hcs)
    · rw [withReturns_cons_of_ne hn, withoutReturns, List.filter_cons_of_pos (by simp [Ne.symm hc])]
      exact congrArg (c :: ·) (ih hcs)

/-- What a text with carriage returns starts with is a start of the text. -/
theorem withoutReturns_start {front : List Char} (h : '\r' ∉ cs)
    (hfront : front <+: withReturns cs) : withoutReturns front <+: cs := by
  obtain ⟨back, hback⟩ := hfront
  refine ⟨withoutReturns back, ?_⟩
  rw [← withoutReturns_append, hback, withoutReturns_withReturns h]

/-! ## Lines -/

theorem dropEnd_cons_of_ne {last : Char} (h : c ≠ last) (cs : List Char) :
    dropEnd last (c :: cs) = c :: dropEnd last cs := by
  rcases List.eq_nil_or_concat cs with rfl | ⟨cs, d, rfl⟩
  · rw [dropEnd, List.getLast?_singleton, if_neg (by simpa using h)]
    rfl
  · rw [dropEnd, dropEnd, List.concat_eq_append, ← List.cons_append, List.getLast?_concat,
      List.getLast?_concat, List.dropLast_concat, List.dropLast_concat]
    split <;> rfl

theorem dropEnd_of_not_mem {last : Char} (h : last ∉ cs) : dropEnd last cs = cs := by
  rw [dropEnd, if_neg]
  exact fun hlast => h (List.mem_of_getLast? hlast)

/-- Without the carriage returns at their ends, the pieces between the line feeds are those that
there were. -/
theorem map_dropEnd_segments (h : '\r' ∉ cs) :
    (segments (withReturns cs)).map (dropEnd '\r') = segments cs := by
  unfold segments
  induction cs with
  | nil => rfl
  | cons c cs ih =>
    obtain ⟨hc, hcs⟩ := List.ne_and_not_mem_of_not_mem_cons h
    have hpieces := ih hcs
    by_cases hn : c = '\n'
    · rw [hn, pieces_cons_self, ← hpieces, withReturns_newline, ← List.singleton_append,
        pieces_append, pieces_of_not_mem (by decide)]
      rfl
    · obtain ⟨piece, rest, hsplit, hall⟩ := pieces_cons_of_ne hn (withReturns cs)
      obtain ⟨piece', rest', hsplit', hall'⟩ := pieces_cons_of_ne hn cs
      rw [hsplit, hsplit', List.map_cons] at hpieces
      obtain ⟨hpiece, hrest⟩ := List.cons.inj hpieces
      rw [withReturns_cons_of_ne hn, hall, hall', List.map_cons, hrest,
        dropEnd_cons_of_ne (Ne.symm hc), hpiece]

end Text

/-! ## Positions -/

/-- Two positions on the same line in the same column, whatever the bytes before them. -/
structure Position.Beside (q p : Position) : Prop where
  line : q.line = p.line
  column : q.column = p.column

variable {p q : Position}

/-- Two positions on one line are beside each other after a line end, whatever their columns. -/
theorem Position.beside_next (h : q.line = p.line) : (q.next '\n').Beside (p.next '\n') :=
  ⟨congrArg (· + 1) h, rfl⟩

theorem Position.Beside.next (h : q.Beside p) (hc : c ≠ '\n') : (q.next c).Beside (p.next c) := by
  rw [Position.next, Position.next, if_neg hc, if_neg hc]
  exact ⟨h.line, congrArg (· + 1) h.column⟩

/-- **A text ends in the same place with carriage returns and without.** -/
theorem Position.Beside.after (h : q.Beside p) (cs : List Char) :
    (q.after (Text.withReturns cs)).Beside (p.after cs) := by
  induction cs generalizing p q with
  | nil => exact h
  | cons c cs ih =>
    by_cases hn : c = '\n'
    · rw [hn, Text.withReturns_newline]
      exact ih (Position.beside_next h.line)
    · rw [Text.withReturns_cons_of_ne hn]
      exact ih (h.next hn)

/-! ## Sources -/

namespace Source

/-- The source with a carriage return before every line feed. -/
def withReturns (src : Source) : Source :=
  ⟨src.name, String.ofList (Text.withReturns src.chars)⟩

variable {src : Source}

@[simp] theorem withReturns_name (src : Source) : src.withReturns.name = src.name := rfl

@[simp] theorem chars_withReturns (src : Source) :
    src.withReturns.chars = Text.withReturns src.chars := String.toList_ofList

theorem beside_stop (src : Source) : src.withReturns.stop.Beside src.stop := by
  rw [stop, chars_withReturns]
  exact Position.Beside.after ⟨rfl, rfl⟩ src.chars

/-- **Carriage returns at their ends change no lines.** -/
theorem lineText_withReturns (h : '\r' ∉ src.chars) (n : Nat) :
    src.withReturns.lineText n = src.lineText n := by
  cases n with
  | zero => rfl
  | succ n =>
    have hsegments := Text.map_dropEnd_segments h
    rw [lineText_succ, lineText_succ, chars_withReturns, ← hsegments, List.getElem?_map]
    cases hline : (Text.segments (Text.withReturns src.chars))[n]? with
    | none => rfl
    | some line =>
      have hmem : Text.dropEnd '\r' line ∈ Text.segments src.chars := by
        rw [← hsegments]
        exact List.mem_map_of_mem (List.mem_of_getElem? hline)
      have hreturn : '\r' ∉ Text.dropEnd '\r' line := fun hr => h (Text.mem_of_mem_pieces hmem hr)
      rw [Option.map_some, Option.getD_some, Option.getD_some, Text.dropEnd_of_not_mem hreturn]

end Source

/-- **A message is shown alike with carriage returns in the text and without.** -/
theorem Diagnostic.render_withReturns {d d' : Diagnostic} {src : Source} (h : '\r' ∉ src.chars)
    (message : d'.message = d.message) (start : d'.span.start.Beside d.span.start)
    (stop : d'.span.stop.Beside d.span.stop) : d'.render src.withReturns = d.render src := by
  simp only [render, renderWith, marks, markCount, message, start.line, start.column, stop.line,
    stop.column, Source.lineText_withReturns h, Source.withReturns_name]

end Curly
