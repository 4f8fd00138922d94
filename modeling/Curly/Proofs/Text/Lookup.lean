import Curly.Proofs.Text.LineTable
import Mathlib.Data.Prod.Lex

/-!
# Looking positions up

The position of a byte is looked up in the line table, without reading the text before its line.
It is the one that reading the text up to the byte ends at (`position?_eq_seek`), which counts the
line feeds and the characters after the last of them (`Position.origin_after`). Positions come one
after the other as their bytes do, so a line and a column tell the byte
(`Source.offsetAt_of_position?`).
-/

namespace Curly

variable {cs front back : List Char} {offset n : Nat} {p q : Position}

/-! ## Bytes -/

namespace Text

/-- A byte of a text is between two characters or inside one of them. -/
theorem exists_cut (h : n ≤ byteLength cs) : (∃ front, front <+: cs ∧ byteLength front = n) ∨
    ∃ front c back, cs = front ++ c :: back ∧ byteLength front < n ∧
      n < byteLength front + c.utf8Size := by
  induction cs generalizing n with
  | nil => exact .inl ⟨[], List.prefix_rfl, (Nat.le_zero.1 h).symm⟩
  | cons c cs ih =>
    rw [byteLength_cons] at h
    by_cases hinside : n < c.utf8Size
    · rcases Nat.eq_zero_or_pos n with rfl | hpos
      · exact .inl ⟨[], List.nil_prefix, rfl⟩
      · exact .inr ⟨[], c, cs, rfl, hpos, by rwa [byteLength_nil, Nat.zero_add]⟩
    · have hrest : n - c.utf8Size ≤ byteLength cs := by omega
      rcases ih hrest with
        ⟨front, hfront, hlength⟩ | ⟨front, d, back, rfl, hlower, hupper⟩
      · refine .inl ⟨c :: front, (List.prefix_cons_inj c).2 hfront, ?_⟩
        rw [byteLength_cons]
        omega
      · refine .inr ⟨c :: front, d, back, rfl, ?_, ?_⟩ <;> rw [byteLength_cons] <;> omega

/-- A byte inside a character is not between two. -/
theorem byteLength_ne_of_inside {c : Char} {start : List Char}
    (hstart : start <+: front ++ c :: back) (hlower : byteLength front < n)
    (hupper : n < byteLength front + c.utf8Size) :
    byteLength start ≠ n := by
  obtain ⟨rest, hsplit⟩ := hstart
  rcases List.append_eq_append_iff.1 hsplit with ⟨more, rfl, -⟩ | ⟨more, rfl, hmore⟩
  · rw [byteLength_append] at hlower
    omega
  · rw [byteLength_append]
    rcases more with _ | ⟨d, more⟩
    · rw [byteLength_nil]
      omega
    · obtain rfl : c = d := (List.cons.inj hmore).1
      rw [byteLength_cons]
      omega

theorem byteLength_le_of_start (h : front <+: cs) : byteLength front ≤ byteLength cs := by
  obtain ⟨back, rfl⟩ := h
  rw [byteLength_append]
  exact Nat.le_add_right _ _

/-- Of two starts of a text the one with more bytes goes on from the other. -/
theorem exists_append_of_byteLength_lt {start : List Char} (hfront : front <+: cs)
    (hstart : start <+: cs) (h : byteLength front < byteLength start) :
    ∃ more, more ≠ [] ∧ start = front ++ more := by
  rcases List.prefix_or_prefix_of_prefix hfront hstart with ⟨more, rfl⟩ | hback
  · refine ⟨more, ?_, rfl⟩
    rintro rfl
    rw [List.append_nil] at h
    exact h.ne rfl
  · exact absurd (byteLength_le_of_start hback) h.not_ge

end Text

/-! ## Counting -/

namespace Position

/-- **Reading a text counts its line feeds**, the characters after the last of them, and all
bytes. -/
theorem origin_after (cs : List Char) : origin.after cs =
    ⟨1 + cs.count '\n', 1 + (cs.rtakeWhile (· ≠ '\n')).length, Text.byteLength cs⟩ := by
  induction cs using List.reverseRecOn with
  | nil => rfl
  | append_singleton cs c ih =>
    rw [after_append, ih, after_cons, after_nil, next, Text.byteLength_append]
    by_cases hc : c = '\n'
    · simp [hc, List.count_append]
      omega
    · simp [hc, List.count_append]
      omega

/-- Reading to a byte beyond the text ends where the text does. -/
theorem seek_beyond (p : Position) (h : p.offset + Text.byteLength cs ≤ offset) :
    p.seek offset cs = some (p.after cs) := by
  induction cs generalizing p with
  | nil => rw [seek, if_pos (show p.offset ≤ offset from h), after_nil]
  | cons c cs ih =>
    rw [Text.byteLength_cons] at h
    have hlt : p.offset < offset := by
      have := c.utf8Size_pos
      omega
    rw [seek, if_pos hlt, ih _ (by rw [next_offset]; omega), after_cons]

/-- Reading to a byte inside a character ends nowhere. -/
theorem seek_inside (p : Position) {c : Char} (hlower : p.offset + Text.byteLength front < offset)
    (hupper : offset < p.offset + Text.byteLength front + c.utf8Size) :
    p.seek offset (front ++ c :: back) = none := by
  induction front generalizing p with
  | nil =>
    rw [Text.byteLength_nil, Nat.add_zero] at hlower hupper
    have hnext : offset < (p.next c).offset := by rwa [next_offset]
    rw [List.nil_append, seek, if_pos hlower]
    cases back with
    | nil => rw [seek, if_neg hnext.not_ge]
    | cons d back => rw [seek, if_neg hnext.le.not_gt, if_neg hnext.ne']
  | cons d front ih =>
    rw [Text.byteLength_cons] at hlower hupper
    have hlt : p.offset < offset := by omega
    rw [List.cons_append, seek, if_pos hlt]
    exact ih _ (by rw [next_offset]; omega) (by rw [next_offset]; omega)

/-- Line and column, in the order in which a text is read. -/
def place (p : Position) : ℕ ×ₗ ℕ := toLex (p.line, p.column)

theorem place_lt_next (p : Position) (c : Char) : p.place < (p.next c).place := by
  rw [place, place, Prod.Lex.toLex_lt_toLex, next]
  split
  · exact .inl (Nat.lt_succ_self _)
  · exact .inr ⟨rfl, Nat.lt_succ_self _⟩

/-- **Reading on leads to later places.** -/
theorem place_lt_after (p : Position) (h : cs ≠ []) : p.place < (p.after cs).place := by
  induction cs using List.reverseRecOn with
  | nil => exact absurd rfl h
  | append_singleton cs c ih =>
    rw [after_append, after_cons, after_nil]
    by_cases hcs : cs = []
    · rw [hcs]
      exact place_lt_next p c
    · exact (ih hcs).trans (place_lt_next _ c)

end Position

/-! ## The table -/

namespace Source

variable {src : Source} {pre mid post : List Char}

/-- **The position of a byte is what reading the text before it counts.** -/
theorem position?_of_split (h : src.chars = pre ++ post) :
    src.position? (Position.origin.after pre).offset = some (Position.origin.after pre) := by
  obtain ⟨above, hline, hpre, hcount⟩ := Text.exists_lineOf_byte h
  have hoffset : (Position.origin.after pre).offset = Text.byteLength pre := by
    simp [Position.origin]
  have hmin : min (Text.byteLength pre) src.byteLength = Text.byteLength pre := by
    rw [byteLength_eq, h, Text.byteLength_append]
    omega
  have hpoint : Text.partitionPoint (· ≤ Text.byteLength pre) src.lineStarts =
      pre.count '\n' + 1 := by
    rw [lineStarts, h]
    exact Text.partitionPoint_lineStarts pre post
  have hstart : src.lineStarts[pre.count '\n']? = some (Text.byteLength above) := by
    rw [← hcount]
    exact hline.start
  have hbetween : src.between? (Text.byteLength above) (Text.byteLength pre) =
      some (pre.rtakeWhile (· ≠ '\n')) := by
    refine between?_eq_some_iff.2 ⟨above, post, ?_, rfl, ?_⟩
    · rw [← hpre, h]
    · rw [← hpre]
  rw [hoffset, position?, hmin, hpoint, Nat.add_sub_cancel, hstart]
  simp only [Option.bind_eq_bind, Option.bind_some, hbetween]
  rw [Position.origin_after, Nat.add_comm 1, Nat.add_comm 1]
  rfl

theorem position?_byteLength (src : Source) : src.position? src.byteLength = some src.stop := by
  rw [← stop_offset]
  exact position?_of_split (List.append_nil _).symm

theorem span?_of_split (h : src.chars = pre ++ mid ++ post) :
    src.span? (Position.origin.after pre).offset (Position.origin.after (pre ++ mid)).offset =
      some ⟨Position.origin.after pre, Position.origin.after (pre ++ mid)⟩ := by
  have hpre : src.chars = pre ++ (mid ++ post) := by rw [h, List.append_assoc]
  rw [span?, position?_of_split hpre, position?_of_split h]
  rfl

theorem position?_min (src : Source) (offset : Nat) :
    src.position? (min offset src.byteLength) = src.position? offset := by
  rw [position?, position?, Nat.min_assoc, Nat.min_self]

theorem position?_of_start (hfront : front <+: src.chars)
    (hlength : Text.byteLength front = min offset src.byteLength) :
    src.position? offset = some (Position.origin.after front) := by
  obtain ⟨back, hsplit⟩ := hfront
  have hoffset : (Position.origin.after front).offset = min offset src.byteLength := by
    rw [← hlength]
    simp [Position.origin]
  rw [← position?_min, ← hoffset]
  exact position?_of_split hsplit.symm

/-- **The bytes with a position** are those between two characters, and those beyond the text. -/
theorem position?_eq_some_iff : src.position? offset = some p ↔
    ∃ front, front <+: src.chars ∧ Text.byteLength front = min offset src.byteLength ∧
      p = Position.origin.after front := by
  constructor
  · intro hposition
    have h := hposition
    simp only [position?, Option.bind_eq_bind] at h
    obtain ⟨start, -, h⟩ := Option.bind_eq_some_iff.1 h
    obtain ⟨line, hbetween, -⟩ := Option.bind_eq_some_iff.1 h
    obtain ⟨above, back, hsplit, -, hlength⟩ := between?_eq_some_iff.1 hbetween
    have hfront : above ++ line <+: src.chars := ⟨back, hsplit.symm⟩
    rw [position?_of_start hfront hlength] at hposition
    exact ⟨above ++ line, hfront, hlength, (Option.some.inj hposition).symm⟩
  · rintro ⟨front, hfront, hlength, rfl⟩
    exact position?_of_start hfront hlength

/-- **The bytes without a position** are those inside a character. -/
theorem position?_eq_none_iff : src.position? offset = none ↔
    ∃ front c back, src.chars = front ++ c :: back ∧ Text.byteLength front < offset ∧
      offset < Text.byteLength front + c.utf8Size := by
  constructor
  · intro h
    have hle : min offset src.byteLength ≤ Text.byteLength src.chars := by
      rw [← byteLength_eq]
      exact Nat.min_le_right _ _
    rcases Text.exists_cut hle with
      ⟨front, hfront, hlength⟩ | ⟨front, c, back, hsplit, hlower, hupper⟩
    · rw [position?_of_start hfront hlength] at h
      cases h
    · refine ⟨front, c, back, hsplit, ?_, ?_⟩
      · omega
      · rw [byteLength_eq, hsplit, Text.byteLength_append, Text.byteLength_cons] at hupper
        omega
  · rintro ⟨front, c, back, hsplit, hlower, hupper⟩
    have hmin : min offset src.byteLength = offset := by
      rw [byteLength_eq, hsplit, Text.byteLength_append, Text.byteLength_cons]
      omega
    refine Option.eq_none_iff_forall_ne_some.2 fun p hp => ?_
    obtain ⟨start, hstart, hlength, -⟩ := position?_eq_some_iff.1 hp
    rw [hsplit] at hstart
    rw [hmin] at hlength
    exact Text.byteLength_ne_of_inside hstart hlower hupper hlength

/-- **The table gives the positions that reading the text gives.** -/
theorem position?_eq_seek (src : Source) (offset : Nat) :
    src.position? offset = Position.origin.seek offset src.chars := by
  by_cases hbeyond : src.byteLength ≤ offset
  · have hstop : Position.origin.offset + Text.byteLength src.chars ≤ offset := by
      rwa [← byteLength_eq, Position.origin, Nat.zero_add]
    rw [Position.seek_beyond _ hstop, ← position?_min, Nat.min_eq_right hbeyond,
      position?_byteLength]
    rfl
  · cases hposition : src.position? offset with
    | none =>
      obtain ⟨front, c, back, hsplit, hlower, hupper⟩ := position?_eq_none_iff.1 hposition
      rw [hsplit, Position.seek_inside] <;> rwa [Position.origin, Nat.zero_add]
    | some p =>
      obtain ⟨front, ⟨back, hsplit⟩, hlength, rfl⟩ := position?_eq_some_iff.1 hposition
      have hoffset : offset = Position.origin.offset + Text.byteLength front := by
        rw [hlength, Position.origin, Nat.zero_add]
        omega
      rw [← hsplit, hoffset, Position.seek_append]

/-! ## Places -/

/-- **Positions come one after the other** as their bytes do. -/
theorem place_lt_of_lt {low high : Nat} (hlt : low < high) (hle : high ≤ src.byteLength)
    (hp : src.position? low = some p) (hq : src.position? high = some q) : p.place < q.place := by
  obtain ⟨front, hfront, hlow, rfl⟩ := position?_eq_some_iff.1 hp
  obtain ⟨start, hstart, hhigh, rfl⟩ := position?_eq_some_iff.1 hq
  obtain ⟨more, hmore, rfl⟩ := Text.exists_append_of_byteLength_lt hfront hstart (by omega)
  rw [Position.after_append]
  exact Position.place_lt_after _ hmore

/-- The byte at a column of a line: as many characters after the start of the line as there are
columns before it. -/
def offsetAt (src : Source) (line column : Nat) : Nat :=
  (src.lineStarts[line - 1]?).getD 0 +
    Text.byteLength (((src.line? (line - 1)).getD []).take (column - 1))

/-- **A line and a column tell the byte.** -/
theorem offsetAt_of_position? (hle : offset ≤ src.byteLength)
    (h : src.position? offset = some p) : src.offsetAt p.line p.column = offset := by
  obtain ⟨front, ⟨back, hsplit⟩, hlength, rfl⟩ := position?_eq_some_iff.1 h
  obtain ⟨above, hline, hfront, hcount⟩ := Text.exists_lineOf_byte hsplit.symm
  have hstart : src.lineStarts[front.count '\n']? = some (Text.byteLength above) := by
    rw [← hcount]
    exact hline.start
  have hfound : src.line? (front.count '\n') =
      some (front.rtakeWhile (· ≠ '\n') ++ back.takeWhile (· ≠ '\n')) := by
    rw [← hcount]
    exact line?_of_lineOf hline
  rw [Position.origin_after, offsetAt, Nat.add_sub_cancel_left, Nat.add_sub_cancel_left, hstart,
    hfound, Option.getD_some, Option.getD_some, List.take_left, ← Text.byteLength_append, ← hfront,
    hlength, Nat.min_eq_left hle]

/-- **What the line table gives** for any byte. It is what reading the text up to the byte gives: a
byte beyond the text counts as its end, a byte between two characters has the line and the column
that the line feeds and characters before it count, and only a byte inside a character has none.
Later bytes have later places, from which they are told. -/
theorem position?_lookup (src : Source) :
    (∀ offset, src.position? offset = Position.origin.seek offset src.chars) ∧
    (∀ offset p, src.position? offset = some p ↔ ∃ front, front <+: src.chars ∧
      Text.byteLength front = min offset src.byteLength ∧
      p = ⟨1 + front.count '\n', 1 + (front.rtakeWhile (· ≠ '\n')).length,
        min offset src.byteLength⟩) ∧
    (∀ offset, src.position? offset = none ↔ ∃ front c back, src.chars = front ++ c :: back ∧
      Text.byteLength front < offset ∧ offset < Text.byteLength front + c.utf8Size) ∧
    (∀ low high p q, low < high → high ≤ src.byteLength → src.position? low = some p →
      src.position? high = some q → p.place < q.place) ∧
    (∀ offset p, offset ≤ src.byteLength → src.position? offset = some p →
      src.offsetAt p.line p.column = offset) := by
  refine ⟨src.position?_eq_seek, fun offset p => ?_, fun offset => position?_eq_none_iff,
    fun low high p q hlt hle hp hq => place_lt_of_lt hlt hle hp hq,
    fun offset p hle h => offsetAt_of_position? hle h⟩
  rw [position?_eq_some_iff]
  refine exists_congr fun front => and_congr_right fun _ => and_congr_right fun hlength => ?_
  rw [Position.origin_after, hlength]

end Source

end Curly
