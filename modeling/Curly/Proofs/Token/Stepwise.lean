import Curly.Proofs.Text.Lookup
import Curly.Token.Stream

/-!
# A scanner worked by hand

Besides being called for one token after the other, a scanner can be moved and asked in any way:
characters are read singly, and the scanning functions are called wherever it stands, also after
an error. `Operation` lists what it can be asked, and `perform` does it.

Every operation but `next` reads on in the current token (`ReadsOn`), and `next` begins a new one
before it does. So a scanner always stands in its text (`StandsIn`), whatever it has been asked.
What this means for the bytes of the text is `InPlace`: every place, span and piece of text that
the scanner speaks of is found by its bytes (`performAll_inPlace`).
-/

namespace Curly.Scanner

/-- The functions that read a token from wherever the scanner stands. -/
inductive Reader
  | comment | string | template | number | word
  /-- All that has been read of the current token, as a token of this kind. -/
  | make (kind : Token.Kind)
  deriving DecidableEq

/-- What the function reads. -/
def Reader.read (s : Scanner) : Reader → Scan
  | comment => s.comment
  | string => s.string
  | template => s.template
  | number => s.number
  | word => s.word
  | make kind => s.accept kind

/-- What a scanner can be asked. -/
inductive Operation
  | next | advance | peek | start | span | lexeme
  | read (f : Reader)
  deriving DecidableEq

/-- What an operation gives. -/
inductive Answer
  /-- A character, or nothing at the end of the text. -/
  | character (c : Option Char)
  | position (p : Position)
  | span (covered : Span)
  | text (read : String)
  /-- A token or an error, or nothing at the end of the text. -/
  | outcome (r : Option (Except LexicalError Token))

/-- What comes of an operation, and the scanner after it. -/
def perform (s : Scanner) : Operation → Answer × Scanner
  | .next => (.outcome s.next.1, s.next.2)
  | .advance => (.character s.peek?, s.advance)
  | .peek => (.character s.peek?, s)
  | .start => (.position s.start, s)
  | .span => (.span s.span, s)
  | .lexeme => (.text s.lexemeText, s)
  | .read f => (.outcome (some (f.read s).1), (f.read s).2)

/-- The scanner after operations in their order. -/
def performAll (s : Scanner) (ops : List Operation) : Scanner :=
  ops.foldl (fun s op => (s.perform op).2) s

/-! ## One operation -/

variable {s s' : Scanner}

/-- Reading on does not lead back. -/
theorem ReadsOn.here_le (h : s.ReadsOn s') : s.here.offset ≤ s'.here.offset := by
  obtain ⟨hstart, more, hlexeme, -⟩ := h
  rw [Scanner.here, Scanner.here, hstart, hlexeme, Position.after_append,
    Position.after_offset _ more]
  exact Nat.le_add_right _ _

theorem scans_read (s : Scanner) (f : Reader) : s.Scans (f.read s) := by
  cases f with
  | comment => exact scans_comment s
  | string => exact scans_string s
  | template => exact scans_template s
  | number => exact scans_number s
  | word => exact scans_word s
  | make kind => exact scans_accept s kind

/-- **A call of `next` begins a new token** and reads on in it. -/
theorem scans_next (s : Scanner) : s.mark.ReadsOn s.next.2 ∧
    ∀ o ∈ s.next.1, coverOf o = s.next.2.span ∨ coverOf o = Span.point s.next.2.start := by
  unfold next
  split
  · exact ⟨.refl _, nofun⟩
  · next c _ _ =>
    have hscans := (scans_afterFirst s.mark.advance c).after (readsOn_advance s.mark)
    refine ⟨hscans.readsOn, ?_⟩
    rintro o ⟨⟩
    exact hscans.covers

/-- **Any other operation reads on** in the current token. -/
theorem readsOn_perform {op : Operation} (h : op ≠ .next) : s.ReadsOn (s.perform op).2 := by
  cases op with
  | next => exact absurd rfl h
  | advance => exact readsOn_advance s
  | peek | start | span | lexeme => exact .refl s
  | read f => exact (scans_read s f).readsOn

theorem start_perform (s : Scanner) (op : Operation) :
    (s.perform op).2.start = if op = .next then s.here else s.start := by
  split
  · next h => subst h; exact (scans_next s).1.start
  · next h => exact (readsOn_perform h).start

theorem here_le_perform (s : Scanner) (op : Operation) :
    s.here.offset ≤ (s.perform op).2.here.offset := by
  by_cases hop : op = .next
  · subst hop
    exact (scans_next s).1.here_le
  · exact (readsOn_perform hop).here_le

/-! ## Standing in a text -/

/-- The scanner stands in the text of the source: what it has read of the current token and what
it has still to read is what comes after the token's start. -/
def StandsIn (src : Source) (s : Scanner) : Prop :=
  ∃ before, s.start = Position.origin.after before ∧ src.chars = before ++ s.lexeme ++ s.rest

variable {src : Source}

theorem standsIn_atStart (src : Source) : (atStart src.chars).StandsIn src := ⟨[], rfl, rfl⟩

theorem StandsIn.readsOn (h : s.StandsIn src) (hs : s.ReadsOn s') : s'.StandsIn src := by
  obtain ⟨before, hstart, hsplit⟩ := h
  obtain ⟨hstart', more, hlexeme, hrest⟩ := hs
  refine ⟨before, hstart'.trans hstart, ?_⟩
  rw [hsplit, hlexeme, hrest]
  simp only [List.append_assoc]

theorem StandsIn.mark (h : s.StandsIn src) : s.mark.StandsIn src := by
  obtain ⟨before, hstart, hsplit⟩ := h
  refine ⟨before ++ s.lexeme, ?_, ?_⟩
  · rw [Position.after_append, ← hstart]
    rfl
  · rw [hsplit]
    show _ = before ++ s.lexeme ++ [] ++ s.rest
    rw [List.append_nil]

/-- **Every operation leaves the scanner in its text.** -/
theorem StandsIn.perform (h : s.StandsIn src) (op : Operation) : (s.perform op).2.StandsIn src := by
  by_cases hop : op = .next
  · subst hop
    exact h.mark.readsOn (scans_next s).1
  · exact h.readsOn (readsOn_perform hop)

theorem StandsIn.performAll (h : s.StandsIn src) (ops : List Operation) :
    (s.performAll ops).StandsIn src := by
  induction ops generalizing s with
  | nil => exact h
  | cons op ops ih => exact ih (h.perform op)

/-! ## Bytes -/

/-- What the bytes of the text say of a scanner: its two bytes lie in the text in their order and
between characters, the positions there are its own, the text between them is what it has read of
the token, and the text after the second is what it has still to read. -/
structure InPlace (src : Source) (s : Scanner) : Prop where
  ordered : s.start.offset ≤ s.here.offset
  inside : s.here.offset ≤ src.byteLength
  start : src.position? s.start.offset = some s.start
  here : src.position? s.here.offset = some s.here
  lexeme : src.slice? s.span = some s.lexemeText
  token : ∃ before, Source.splitBytes? s.start.offset src.chars = some (before, s.lexeme ++ s.rest)
  rest : ∃ before, Source.splitBytes? s.here.offset src.chars = some (before, s.rest)

theorem StandsIn.inPlace (h : s.StandsIn src) : s.InPlace src := by
  obtain ⟨before, hstart, hsplit⟩ := h
  have hbytes : ∀ front, (Position.origin.after front).offset = Text.byteLength front := by
    intro front
    rw [Position.after_offset, Position.origin, Nat.zero_add]
  have hhere : s.here = Position.origin.after (before ++ s.lexeme) := by
    rw [Scanner.here, hstart, Position.after_append]
  have hsplit' : src.chars = before ++ (s.lexeme ++ s.rest) := by rw [hsplit, List.append_assoc]
  refine ⟨?_, ?_, ?_, ?_, ?_, ⟨before, ?_⟩, before ++ s.lexeme, ?_⟩
  · rw [Scanner.here, Position.after_offset]
    exact Nat.le_add_right _ _
  · rw [hhere, hbytes, Source.byteLength_eq, hsplit, Text.byteLength_append _ s.rest]
    exact Nat.le_add_right _ _
  · rw [hstart]
    exact Source.position?_of_split hsplit'
  · rw [hhere]
    exact Source.position?_of_split hsplit
  · rw [Scanner.span, hhere, hstart]
    exact Source.slice?_of_split hsplit
  · rw [hstart, hbytes, hsplit']
    exact Source.splitBytes?_append _ _
  · rw [hhere, hbytes, hsplit]
    exact Source.splitBytes?_append _ _

theorem InPlace.span? (h : s.InPlace src) :
    src.span? s.start.offset s.here.offset = some s.span := by
  rw [Source.span?, h.start, h.here]
  rfl

theorem InPlace.span?_point (h : s.InPlace src) :
    src.span? s.start.offset s.start.offset = some (Span.point s.start) := by
  rw [Source.span?, h.start]
  rfl

/-- The answer is found in the text by the bytes of the scanner `s` that is asked and of the
scanner `s'` after it. A token or an error covers the text between the bytes of `s'`, or nothing
at the first of them. -/
def Answer.FoundIn (src : Source) (s s' : Scanner) : Answer → Prop
  | .character c => ∃ before after,
      Source.splitBytes? s.here.offset src.chars = some (before, after) ∧ c = after.head?
  | .position p => src.position? s'.start.offset = some p
  | .span covered => src.span? s'.start.offset s'.here.offset = some covered
  | .text read => src.slice? s'.span = some read
  | .outcome r => ∀ o ∈ r, src.span? s'.start.offset s'.here.offset = some (coverOf o) ∨
      src.span? s'.start.offset s'.start.offset = some (coverOf o)

theorem foundIn_outcome (h : s'.InPlace src) {r : Option (Except LexicalError Token)}
    (hr : ∀ o ∈ r, coverOf o = s'.span ∨ coverOf o = Span.point s'.start) :
    (Answer.outcome r).FoundIn src s s' := by
  intro o ho
  rcases hr o ho with hcover | hcover
  · rw [hcover]
    exact .inl h.span?
  · rw [hcover]
    exact .inr h.span?_point

/-- **What an operation gives is found in the text.** -/
theorem foundIn_perform (h : s.StandsIn src) (op : Operation) :
    (s.perform op).1.FoundIn src s (s.perform op).2 := by
  have hs := h.inPlace
  have hs' := (h.perform op).inPlace
  cases op with
  | next => exact foundIn_outcome hs' (scans_next s).2
  | advance | peek =>
    obtain ⟨before, hrest⟩ := hs.rest
    exact ⟨before, s.rest, hrest, rfl⟩
  | start => exact hs.start
  | span => exact hs.span?
  | lexeme => exact hs.lexeme
  | read f =>
    refine foundIn_outcome hs' ?_
    rintro o ⟨⟩
    exact (scans_read s f).covers

/-- **No operation leads a scanner astray.** Whatever it has been asked since the start of a text,
its bytes lie in the text, in their order and between characters, what it has still to read is the
text after them, and every look-up by them succeeds. The next operation leaves it in its place: the
scanner does not go back, it begins a new token only if it is asked for the next one, and then where
it stood, and what it answers is found in the text. -/
theorem performAll_inPlace (src : Source) (ops : List Operation) (op : Operation) :
    let s := (atStart src.chars).performAll ops
    let s' := (s.perform op).2
    s.InPlace src ∧ s'.InPlace src ∧ s.here.offset ≤ s'.here.offset ∧
      s'.start = (if op = .next then s.here else s.start) ∧ (s.perform op).1.FoundIn src s s' := by
  intro s s'
  have hs : s.StandsIn src := (standsIn_atStart src).performAll ops
  exact ⟨hs.inPlace, (hs.perform op).inPlace, here_le_perform s op, start_perform s op,
    foundIn_perform hs op⟩

/-- A number that is read on from a letter of two bytes. -/
example : ((atStart ['é', '1', '.']).performAll [.advance, .read .number]).span =
    ⟨⟨1, 1, 0⟩, ⟨1, 4, 4⟩⟩ := by decide

end Curly.Scanner
