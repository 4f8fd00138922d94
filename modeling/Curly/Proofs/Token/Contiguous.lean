import Curly.Proofs.Text.Offset
import Curly.Proofs.Token.Sequence
import Mathlib.Order.Nat

/-!
# Spans in a row

The tokens of a text stand in a row: each begins where the one before ends, from the start of the
text to its end (`Tokenizes.contiguous`), and the piece of text that each covers is its lexeme
(`Tokenizes.exists_covers`).
-/

namespace Curly

/-- `Contiguous p spans q`: each of the spans begins where the one before ends, from `p` to `q`. -/
inductive Contiguous : Position → List Span → Position → Prop
  | nil (p : Position) : Contiguous p [] p
  | cons {s : Span} {spans : List Span} {q : Position} (later : Contiguous s.stop spans q) :
    Contiguous s.start (s :: spans) q

namespace Contiguous

variable {p q r : Position} {s : Span} {xs ys : List Span}

@[simp] theorem nil_iff : Contiguous p [] q ↔ p = q := by
  constructor
  · rintro ⟨⟩
    rfl
  · rintro rfl
    exact .nil p

@[simp] theorem cons_iff : Contiguous p (s :: xs) q ↔ s.start = p ∧ Contiguous s.stop xs q := by
  constructor
  · intro h
    cases h with
    | cons later => exact ⟨rfl, later⟩
  · rintro ⟨rfl, later⟩
    exact .cons later

theorem append_iff : Contiguous p (xs ++ ys) q ↔ ∃ r, Contiguous p xs r ∧ Contiguous r ys q := by
  induction xs generalizing p with
  | nil => simp
  | cons s xs ih => simp [ih, and_assoc]

theorem start_of_head (h : Contiguous p xs q) (hs : s ∈ xs.head?) : s.start = p := by
  cases h with
  | nil => cases hs
  | cons => cases hs; rfl

theorem stop_of_getLast (h : Contiguous p xs q) (hs : s ∈ xs.getLast?) : s.stop = q := by
  obtain ⟨ys, rfl⟩ := List.getLast?_eq_some_iff.1 hs
  obtain ⟨r, -, hlast⟩ := append_iff.1 h
  exact nil_iff.1 (cons_iff.1 hlast).2

/-- Spans in a row that run forwards come one after the other. -/
theorem pairwise (h : Contiguous p xs q) (hforward : ∀ s ∈ xs, s.start.offset ≤ s.stop.offset) :
    (p.offset ≤ q.offset ∧ ∀ s ∈ xs, p.offset ≤ s.start.offset ∧ s.stop.offset ≤ q.offset) ∧
      xs.Pairwise fun s s' => s.stop.offset ≤ s'.start.offset := by
  induction h with
  | nil p => simp
  | @cons s xs q later ih =>
    obtain ⟨hs, hxs⟩ := List.forall_mem_cons.1 hforward
    obtain ⟨⟨hle, hinside⟩, hpairs⟩ := ih hxs
    refine ⟨⟨hs.trans hle, List.forall_mem_cons.2 ⟨⟨Nat.le_refl _, hle⟩, fun s' hs' => ?_⟩⟩,
      List.pairwise_cons.2 ⟨fun s' hs' => (hinside s' hs').1, hpairs⟩⟩
    obtain ⟨hstart, hstop⟩ := hinside s' hs'
    exact ⟨hs.trans hstart, hstop⟩

end Contiguous

variable {p : Position} {text : List Char} {ts : List Token} {t : Token} {src : Source}

/-- **The tokens of a text stand in a row** from its start to its end. -/
theorem Tokenizes.contiguous (h : Tokenizes p text (.ok ts)) :
    Contiguous p (ts.map Token.span) (p.after text) := by
  induction ts generalizing p text with
  | nil =>
    obtain rfl := h.text_eq_nil
    exact .nil p
  | cons t ts ih =>
    obtain ⟨lexeme, rest, rfl, reads, later⟩ := h.exists_cons
    rw [Position.after_append]
    cases reads with
    | token => exact Contiguous.cons_iff.2 ⟨rfl, ih later⟩

/-- **No two tokens of a text begin at the same byte**, the end of input included. -/
theorem Tokenizes.pairwise_start (h : Tokenizes p text (.ok ts)) :
    (∀ t ∈ ts ++ [Token.endOfInput (p.after text)], p.offset ≤ t.span.start.offset) ∧
      (ts ++ [Token.endOfInput (p.after text)]).Pairwise fun t u =>
        t.span.start.offset < u.span.start.offset := by
  induction ts generalizing p text with
  | nil =>
    obtain rfl := h.text_eq_nil
    exact ⟨fun t ht => by rw [List.mem_singleton.1 ht]; rfl, List.pairwise_singleton _ _⟩
  | cons t ts ih =>
    obtain ⟨lexeme, rest, rfl, reads, later⟩ := h.exists_cons
    obtain ⟨hstart, hpairs⟩ := ih later
    have hlt : p.offset < (p.after lexeme).offset := by
      have := Text.byteLength_pos reads.ne_nil
      rw [Position.after_offset]
      omega
    have ht : t.span.start = p := by
      cases reads with
      | token => rfl
    rw [← Position.after_append] at hstart hpairs
    refine ⟨List.forall_mem_cons.2 ⟨by rw [ht], fun u hu => ?_⟩,
      List.pairwise_cons.2 ⟨fun u hu => ?_, hpairs⟩⟩
    · exact hlt.le.trans (hstart u hu)
    · rw [ht]
      exact hlt.trans_le (hstart u hu)

/-- The token covers a lexeme of its kind in the text, and says of it what tokens of this kind
do. -/
def Token.Covers (src : Source) (t : Token) (lexeme : List Char) : Prop :=
  Lexeme lexeme (.ok t.kind) ∧ t = .ofLexeme t.span.start t.kind lexeme ∧
    src.slice? t.span = some (String.ofList lexeme)

/-- **Each token of a text covers a lexeme.** -/
theorem Tokenizes.exists_covers (before : List Char)
    (h : Tokenizes (Position.origin.after before) text (.ok ts))
    (hsplit : src.chars = before ++ text) : ∀ t ∈ ts, ∃ lexeme, t.Covers src lexeme := by
  induction ts generalizing before text with
  | nil => simp
  | cons t ts ih =>
    obtain ⟨lexeme, rest, rfl, reads, later⟩ := h.exists_cons
    rw [← List.append_assoc] at hsplit
    rw [← Position.after_append] at later
    refine List.forall_mem_cons.2 ⟨⟨lexeme, ?_⟩, ih _ later hsplit⟩
    cases reads with
    | token isLongest =>
      refine ⟨isLongest.isLexeme, rfl, ?_⟩
      rw [Token.ofLexeme_span, ← Position.after_append]
      exact Source.slice?_of_split hsplit

theorem Token.Covers.nonempty {lexeme : List Char} (h : t.Covers src lexeme) :
    t.span.start.offset < t.span.stop.offset := by
  obtain ⟨hlexeme, ht, -⟩ := h
  have hstop : t.span.stop = t.span.start.after lexeme := congrArg (·.span.stop) ht
  have := Text.byteLength_pos hlexeme.ne_nil
  rw [hstop, Position.after_offset]
  omega

end Curly
