import Curly.Proofs.Text.LineTable
import Curly.Proofs.Token.Seam

/-!
# Texts one below the other

Two texts with a line end between them. Nothing goes on over the line end: the tokens are those of
the upper text, the line end, and those of the lower text as many lines and bytes further down as
the upper text has (`Source.tokens?_join`).
-/

namespace Curly

/-- **There is one line more than there are line ends.** -/
theorem Position.after_line (p : Position) (cs : List Char) :
    (p.after cs).line + 1 = p.line + (Text.segments cs).length := by
  induction cs generalizing p with
  | nil => rfl
  | cons c cs ih =>
    rw [Position.after_cons, ih]
    by_cases hc : c = '\n'
    · rw [Text.segments, Text.segments, hc, Text.pieces_cons_self, Position.next, if_pos rfl,
        List.length_cons]
      exact Nat.add_right_comm _ _ _
    · obtain ⟨piece, rest, hcs, hall⟩ := Text.pieces_cons_of_ne hc cs
      rw [Text.segments, Text.segments, hcs, hall, Position.next, if_neg hc, List.length_cons,
        List.length_cons]

namespace Source

/-- Two texts with a line end between them. -/
def join (name : String) (upper lower : Source) : Source :=
  ⟨name, upper.text ++ "\n" ++ lower.text⟩

/-- Where the positions of a text come that stands below this one and a line end. -/
def below (src : Source) : Position → Position :=
  Position.shift src.lineCount (src.byteLength + 1)

variable {upper lower : Source} {ts : List Token}

theorem chars_join (name : String) (upper lower : Source) :
    (join name upper lower).chars = upper.chars ++ '\n' :: lower.chars := by
  simp [join, chars]

/-- The line end between two texts leads from the end of the one to the start of the other. -/
theorem stop_next (src : Source) : src.stop.next '\n' = src.below .origin := by
  have hline : src.stop.line + 1 = 1 + src.lineCount := by
    rw [lineCount_eq_length]
    exact Position.after_line .origin src.chars
  have hsize : ('\n').utf8Size = 1 := rfl
  rw [Position.next, if_pos rfl, hline, stop_offset, hsize]
  simp [below, Position.shift, Position.origin]

theorem stop_join (name : String) (upper lower : Source) :
    (join name upper lower).stop = upper.below lower.stop := by
  rw [stop, chars_join, Position.after_append, Position.after_cons]
  show (upper.stop.next '\n').after lower.chars = _
  rw [stop_next, below, Position.shift_after]
  rfl

/-- **The tokens of two texts with a line end between them**: those of the upper one, the line
end, and those of the lower one further down, or its error. -/
theorem tokens?_join (name : String) {out : Except LexicalError (List Token)}
    (h : Tokenizes .origin upper.chars (.ok ts)) (h' : Tokenizes .origin lower.chars out) :
    (join name upper lower).tokens? =
      (out.map fun us => ts ++ Piece.newline.token upper.stop ::
        (us ++ [Token.endOfInput lower.stop]).map (Token.move upper.below)).mapError
          (LexicalError.move upper.below) := by
  have hlower := h'.shift upper.lineCount (upper.byteLength + 1)
  have hstop : upper.stop.next '\n' =
      Position.origin.shift upper.lineCount (upper.byteLength + 1) := stop_next upper
  rw [← hstop] at hlower
  have hjoin := h.append (.inl rfl) (Tokenizes.newline hlower)
  rw [← chars_join name] at hjoin
  rw [tokens?_of_tokenizes hjoin, stop_join]
  cases out with
  | error e => rfl
  | ok us =>
    simp [shifted, Except.map, Except.mapError, below, Token.move_endOfInput]
    rfl

end Source

end Curly
