import Curly.Proofs.Token.Contiguous
import Curly.Proofs.Token.Seam

/-!
# Lexemes with blanks between them

Scanning undoes spelling: lexemes that are written one after the other, each with a space after
it or, after a comment, a line end, are read back one by one (`exists_tokens?_spaced`). A lexeme
is the longest of a text that is nothing else, and a blank behind it makes no longer one.
-/

namespace Curly

variable {x : Piece} {xs : List Piece} {c : Char} {rest : List Char}

namespace Piece

/-- **A lexeme stands before a blank** that does not go into it. -/
theorem standsBefore_of_seals (h : Lexeme x.lexeme (.ok x.kind))
    (hc : Seals c (x.kind = .comment)) : x.StandsBefore (c :: rest) := by
  have hself : Longest x.lexeme x.lexeme (.ok x.kind) :=
    ⟨h, List.prefix_rfl, fun _ _ _ hl => hl.length_le⟩
  have hseals : Seals c (x.kind = .comment ∧ x.lexeme = x.lexeme) :=
    hc.imp_right (And.imp_right (mt And.left))
  intro s hs
  have hlongest := hself.append hseals rest
  rw [← hs] at hlongest
  exact Scanner.next_of_longest hlongest hs

/-- What is written after the lexeme of a token of this kind. -/
def separator (kind : Token.Kind) : Piece := if kind = .comment then newline else space

theorem standsBefore_separator (kind : Token.Kind) : (separator kind).StandsBefore rest := by
  rw [separator]
  split
  · exact standsBefore_newline
  · exact standsBefore_space

/-- The pieces with a separator after each. -/
def spaced (xs : List Piece) : List Piece := xs.flatMap fun x => [x, separator x.kind]

/-- **Lexemes with separators between them stand.** -/
theorem stand_spaced (h : ∀ x ∈ xs, Lexeme x.lexeme (.ok x.kind)) : Stand [] (spaced xs) := by
  induction xs with
  | nil => exact stand_nil
  | cons x xs ih =>
    obtain ⟨hx, hxs⟩ := List.forall_mem_cons.1 h
    have hstands : x.StandsBefore ((separator x.kind).lexeme ++ spell (spaced xs)) := by
      rw [separator]
      split
      · exact standsBefore_of_seals hx (.inl rfl)
      next hkind => exact standsBefore_of_seals hx (.inr ⟨rfl, hkind⟩)
    rw [spaced, List.flatMap_cons, ← spaced]
    simp only [List.cons_append, List.nil_append, stand_cons, spell_cons, List.append_nil]
    exact ⟨hstands, standsBefore_separator x.kind, ih hxs⟩

/-- The kinds and texts of the tokens of pieces. -/
theorem map_place (p : Position) (xs : List Piece) :
    (place p xs).map (fun t => (t.kind, t.literal)) =
      xs.map fun x => (x.kind, some (x.kind.literal x.lexeme)) := by
  induction xs generalizing p with
  | nil => rfl
  | cons x xs ih => rw [place_cons, List.map_cons, ih, List.map_cons]; rfl

end Piece

/-! ## Tokens of any sources -/

/-- Some source has the token `t`, which is not the end of input, and `lexeme` is all that `t`
covers of it. -/
def IsSpelling (lexeme : String) (t : Token) : Prop :=
  ∃ (src : Source) (ts : List Token),
    src.tokens? = .ok ts ∧ t ∈ ts ∧ t.kind ≠ .eof ∧ src.slice? t.span = some lexeme

/-- What a token covers of its source is a lexeme of its kind, and its text is that of the
lexeme. -/
theorem IsSpelling.lexeme {lexeme : String} {t : Token} (h : IsSpelling lexeme t) :
    Lexeme lexeme.toList (.ok t.kind) ∧ t.literal = some (t.kind.literal lexeme.toList) := by
  obtain ⟨src, ts, htokens, ht, hkind, hslice⟩ := h
  obtain ⟨us, rfl, hcut⟩ := Source.exists_of_tokens? htokens
  rcases List.mem_append.1 ht with ht | ht
  · obtain ⟨cs, hlexeme, htoken, hcovers⟩ := hcut.exists_covers [] rfl t ht
    obtain rfl : String.ofList cs = lexeme := Option.some.inj (hcovers.symm.trans hslice)
    rw [String.toList_ofList]
    exact ⟨hlexeme, congrArg Token.literal htoken⟩
  · rw [List.mem_singleton.1 ht] at hkind
    exact absurd rfl hkind

/-- The lexemes of tokens, with a space after each or a line end after a comment. -/
def spacedText (xs : List (String × Token)) : String :=
  String.join (xs.map fun x => x.1 ++ if x.2.kind = .comment then "\n" else " ")

/-- The lexemes of tokens as pieces. -/
def spelledPieces (xs : List (String × Token)) : List Piece :=
  xs.map fun x => ⟨x.2.kind, x.1.toList⟩

theorem toList_spacedText (xs : List (String × Token)) :
    (spacedText xs).toList = Piece.spell (Piece.spaced (spelledPieces xs)) := by
  have hone : ∀ x : String × Token, (x.1 ++ if x.2.kind = .comment then "\n" else " ").toList =
      Piece.spell [⟨x.2.kind, x.1.toList⟩, Piece.separator x.2.kind] := by
    intro x
    rw [Piece.separator, String.toList_append]
    split <;> rfl
  rw [spacedText, String.toList_join, List.flatMap_map, Piece.spell, Piece.spaced,
    List.flatMap_assoc, spelledPieces, List.flatMap_map]
  exact List.flatMap_congr fun x _ => hone x

/-- **Scanning undoes spelling.** Take any tokens of any sources, and write the lexeme of each with
a space after it, or with a line end if it is a comment. The tokens of this text have the kinds
and texts of those that were taken, each with the token of its separator after it. -/
theorem exists_tokens?_spaced (name : String) (xs : List (String × Token))
    (h : ∀ x ∈ xs, IsSpelling x.1 x.2) :
    ∃ ts, (Source.mk name (spacedText xs)).tokens? = .ok ts ∧
      ts.map (fun t => (t.kind, t.literal)) =
        xs.flatMap (fun x => [(x.2.kind, x.2.literal),
          if x.2.kind = .comment then (.newline, some "\n") else (.spacing, some " ")]) ++
        [(.eof, none)] := by
  have hlexemes : ∀ x ∈ spelledPieces xs, Lexeme x.lexeme (.ok x.kind) := by
    intro x hx
    obtain ⟨y, hy, rfl⟩ := List.mem_map.1 hx
    exact (h y hy).lexeme.1
  refine ⟨_, Piece.tokens?_of_stand (Piece.stand_spaced hlexemes) (toList_spacedText xs), ?_⟩
  rw [List.map_append, Piece.map_place]
  refine congrArg₂ _ ?_ rfl
  rw [Piece.spaced, spelledPieces, List.flatMap_map, List.map_flatMap]
  refine List.flatMap_congr fun x hx => ?_
  rw [(h x hx).lexeme.2, Piece.separator]
  split <;> rfl

/-- A comment whose line ends with a carriage return, a line end, a float and a template of two
lines, from different sources. -/
theorem exists_tokens?_spaced_comment :
    ∃ ts, (Source.mk "a" "#b\r\n\r\n .5 \"c\nd\" ").tokens? = .ok ts ∧
      ts.map (fun t => (t.kind, t.literal)) = [(.comment, some "#b"), (.newline, some "\n"),
        (.newline, some "\n"), (.spacing, some " "), (.float, some ".5"), (.spacing, some " "),
        (.template, some "c\nd"), (.spacing, some " "), (.eof, none)] := by
  have hupper : (Source.mk "b" "#b\r\n.5").tokens? = .ok [
      ⟨.comment, some "#b", ⟨⟨1, 1, 0⟩, ⟨1, 4, 3⟩⟩⟩, ⟨.newline, some "\n", ⟨⟨1, 4, 3⟩, ⟨2, 1, 4⟩⟩⟩,
      ⟨.float, some ".5", ⟨⟨2, 1, 4⟩, ⟨2, 3, 6⟩⟩⟩, Token.endOfInput ⟨2, 3, 6⟩] := by decide +kernel
  have hlower : (Source.mk "c" "\r\n\"c\nd\"").tokens? = .ok [
      ⟨.newline, some "\n", ⟨⟨1, 1, 0⟩, ⟨2, 1, 2⟩⟩⟩,
      ⟨.template, some "c\nd", ⟨⟨2, 1, 2⟩, ⟨3, 3, 7⟩⟩⟩, Token.endOfInput ⟨3, 3, 7⟩] := by
    decide +kernel
  refine exists_tokens?_spaced "a" [
    ("#b\r", ⟨.comment, some "#b", ⟨⟨1, 1, 0⟩, ⟨1, 4, 3⟩⟩⟩),
    ("\r\n", ⟨.newline, some "\n", ⟨⟨1, 1, 0⟩, ⟨2, 1, 2⟩⟩⟩),
    (".5", ⟨.float, some ".5", ⟨⟨2, 1, 4⟩, ⟨2, 3, 6⟩⟩⟩),
    ("\"c\nd\"", ⟨.template, some "c\nd", ⟨⟨2, 1, 2⟩, ⟨3, 3, 7⟩⟩⟩)] ?_
  simp only [List.forall_mem_cons]
  exact ⟨⟨_, _, hupper, by simp, by simp, by decide +kernel⟩,
    ⟨_, _, hlower, by simp, by simp, by decide +kernel⟩,
    ⟨_, _, hupper, by simp, by simp, by decide +kernel⟩,
    ⟨_, _, hlower, by simp, by simp, by decide +kernel⟩, List.forall_mem_nil _⟩

end Curly
