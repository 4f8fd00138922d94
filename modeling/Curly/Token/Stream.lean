import Curly.Text.Source
import Curly.Token.Scanner

/-!
# The tokens of a text

Scanning a text from its start to its end. `Scanner.results` keeps on after errors and gives
every token and error in order; it ends because each of them takes at least one character
(`next_rest_lt`). That is read off what a scanning function does (`Scans`): it only reads on in the
current token (`ReadsOn`). `Source.tokens?` gives the tokens of a text without errors, and the first
error of any other text.
-/

namespace Curly

namespace Scanner

/-! ## Reading on -/

/-- What the token or the error of a call covers. -/
def coverOf : Except LexicalError Token → Span
  | .ok t => t.span
  | .error e => e.span

/-- `s'` stands further on in the token that `s` stands in, or where `s` does. -/
structure ReadsOn (s s' : Scanner) : Prop where
  start : s'.start = s.start
  taken : ∃ more, s'.lexeme = s.lexeme ++ more ∧ s.rest = more ++ s'.rest

/-- A scanning function reads on, and what it gives covers all that has been read of the token, or
nothing at its start. -/
structure Scans (s : Scanner) (r : Scan) : Prop where
  readsOn : s.ReadsOn r.2
  covers : coverOf r.1 = r.2.span ∨ coverOf r.1 = Span.point r.2.start

variable {s s' s'' : Scanner} {r : Scan}

theorem ReadsOn.refl (s : Scanner) : s.ReadsOn s := ⟨rfl, [], (List.append_nil _).symm, rfl⟩

theorem ReadsOn.trans (h : s.ReadsOn s') (h' : s'.ReadsOn s'') : s.ReadsOn s'' := by
  obtain ⟨hstart, more, hlexeme, hrest⟩ := h
  obtain ⟨hstart', more', hlexeme', hrest'⟩ := h'
  refine ⟨hstart'.trans hstart, more ++ more', ?_, ?_⟩
  · rw [hlexeme', hlexeme, List.append_assoc]
  · rw [hrest, hrest', List.append_assoc]

theorem readsOn_advance (s : Scanner) : s.ReadsOn s.advance := by
  obtain ⟨start, lexeme, rest⟩ := s
  cases rest with
  | nil => exact .refl _
  | cons c cs => exact ⟨rfl, [c], rfl, rfl⟩

theorem readsOn_readWhile (s : Scanner) (p : Char → Bool) : s.ReadsOn (s.readWhile p) :=
  ⟨rfl, s.rest.takeWhile p, rfl, List.takeWhile_append_dropWhile.symm⟩

theorem ReadsOn.rest_le (h : s.ReadsOn s') : s'.rest.length ≤ s.rest.length := by
  obtain ⟨-, more, -, hrest⟩ := h
  rw [hrest, List.length_append]
  exact Nat.le_add_left _ _

/-- A call may be preceded by other reading. -/
theorem Scans.after (h : s'.Scans r) (hs : s.ReadsOn s') : s.Scans r :=
  ⟨hs.trans h.readsOn, h.covers⟩

theorem scans_token (s : Scanner) (kind : Token.Kind) (literal : String) :
    s.Scans (.ok (s.token kind literal), s) :=
  ⟨.refl s, .inl rfl⟩

theorem scans_fault (s : Scanner) (cause : LexicalError.Cause) :
    s.Scans (.error (s.fault cause), s) :=
  ⟨.refl s, .inl rfl⟩

theorem scans_accept (s : Scanner) (kind : Token.Kind) : s.Scans (s.accept kind) :=
  scans_token s kind _

theorem scans_comment (s : Scanner) : s.Scans s.comment :=
  (scans_token _ _ _).after (readsOn_readWhile s _)

theorem scans_string (s : Scanner) : s.Scans s.string := by
  simp only [string]
  split
  · exact (scans_token _ _ _).after ((readsOn_readWhile s _).trans (readsOn_advance _))
  · exact (scans_fault _ _).after (readsOn_readWhile s _)

theorem scans_template (s : Scanner) : s.Scans s.template := by
  simp only [template]
  split
  · exact (scans_token _ _ _).after ((readsOn_readWhile s _).trans (readsOn_advance _))
  · exact (scans_fault _ _).after (readsOn_readWhile s _)

theorem scans_number (s : Scanner) : s.Scans s.number := by
  simp only [number]
  split
  · exact (scans_accept _ _).after (readsOn_readWhile s _)
  · exact (scans_fault _ _).after (readsOn_readWhile s _)

theorem scans_word (s : Scanner) : s.Scans s.word :=
  (scans_accept _ _).after (readsOn_readWhile s _)

theorem scans_afterFirst (s : Scanner) (c : Char) : s.Scans (s.afterFirst c) := by
  unfold afterFirst
  repeat' split
  · exact scans_accept s _
  · exact (scans_accept _ _).after (readsOn_advance s)
  · exact (scans_token _ _ _).after (readsOn_advance s)
  · exact scans_comment s
  · exact scans_number s
  · exact scans_accept s _
  · exact scans_accept s _
  · exact scans_accept s _
  · exact scans_string s
  · exact scans_template s
  · exact scans_word s
  · exact scans_number s
  · exact ⟨.refl s, .inr rfl⟩

/-- A token or an error leaves less to read. -/
theorem next_rest_lt {r : Except LexicalError Token} (h : s.next = (some r, s')) :
    s'.rest.length < s.rest.length := by
  unfold next at h
  split at h
  · simp at h
  · next c cs hs =>
    obtain ⟨-, rfl⟩ := Prod.mk.inj h
    have taken : s.mark.advance.rest = cs := by simp [mark, advance, hs]
    have bound := (scans_afterFirst s.mark.advance c).readsOn.rest_le
    rw [taken] at bound
    rw [hs]
    exact Nat.lt_succ_of_le bound

/-! ## Reading to the end -/

/-- All tokens and errors from where the scanner stands to the end of the text. -/
def results (s : Scanner) : List (Except LexicalError Token) :=
  match h : s.next with
  | (none, _) => []
  | (some r, s') =>
    have := next_rest_lt h
    r :: s'.results
  termination_by s.rest.length

/-- The tokens before the first error. -/
def tokensBeforeError : List (Except LexicalError Token) → List Token
  | .ok t :: rs => t :: tokensBeforeError rs
  | _ => []

/-- The tokens if there is no error, else the first error. -/
def collect : List (Except LexicalError Token) → Except LexicalError (List Token)
  | [] => .ok []
  | .error e :: _ => .error e
  | .ok t :: rs => (collect rs).map (t :: ·)

end Scanner

namespace Source

/-- All tokens and errors of the text. -/
def scan (src : Source) : List (Except LexicalError Token) := (Scanner.atStart src.chars).results

/-- The tokens of the text and the end of input, or the first error. -/
def tokens? (src : Source) : Except LexicalError (List Token) :=
  (Scanner.collect src.scan).map (· ++ [Token.endOfInput src.stop])

end Source

end Curly
