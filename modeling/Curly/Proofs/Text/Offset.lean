import Curly.Text.Source

/-!
# Bytes and positions

A text is cut at a byte by cutting its list of characters. Where a text is `pre ++ post`, the byte
`Text.byteLength pre` is the one between the two parts: reading the text up to it ends at the
position after `pre` (`Position.seek_append`), and the piece of text between two such bytes is the
list of characters between them (`between?_eq_some_iff`, `slice?_of_split`).
-/

namespace Curly

namespace Text

@[simp] theorem byteLength_nil : byteLength [] = 0 := rfl

@[simp] theorem byteLength_cons (c : Char) (cs : List Char) :
    byteLength (c :: cs) = c.utf8Size + byteLength cs := rfl

@[simp] theorem byteLength_append (cs ds : List Char) :
    byteLength (cs ++ ds) = byteLength cs + byteLength ds := by
  induction cs with
  | nil => rw [List.nil_append, byteLength_nil, Nat.zero_add]
  | cons c cs ih => rw [List.cons_append, byteLength_cons, ih, byteLength_cons, Nat.add_assoc]

theorem byteLength_pos {cs : List Char} (h : cs ≠ []) : 0 < byteLength cs := by
  obtain ⟨c, cs, rfl⟩ := List.exists_cons_of_ne_nil h
  have := c.utf8Size_pos
  rw [byteLength_cons]
  omega

theorem utf8ByteSize_ofList (cs : List Char) : (String.ofList cs).utf8ByteSize = byteLength cs := by
  induction cs with
  | nil => simp
  | cons c cs ih =>
    have split : String.ofList (c :: cs) = String.singleton c ++ String.ofList cs := by
      rw [← String.toList_inj]
      simp
    rw [split, String.utf8ByteSize_append, String.utf8ByteSize_singleton, ih, byteLength_cons]

end Text

namespace Position

@[simp] theorem next_offset (p : Position) (c : Char) :
    (p.next c).offset = p.offset + c.utf8Size := by
  unfold next
  split <;> rfl

@[simp] theorem after_offset (p : Position) (cs : List Char) :
    (p.after cs).offset = p.offset + Text.byteLength cs := by
  induction cs generalizing p with
  | nil => rfl
  | cons c cs ih =>
    rw [after_cons, ih, next_offset, Text.byteLength_cons]
    omega

/-- The byte after `pre` is at the position after `pre`. -/
theorem seek_append (p : Position) (pre post : List Char) :
    p.seek (p.offset + Text.byteLength pre) (pre ++ post) = some (p.after pre) := by
  induction pre generalizing p with
  | nil => cases post <;> simp [seek]
  | cons c pre ih =>
    have hlt : p.offset < p.offset + Text.byteLength (c :: pre) := by
      have := Text.byteLength_pos (List.cons_ne_nil c pre)
      omega
    have hstep : p.offset + Text.byteLength (c :: pre) =
        (p.next c).offset + Text.byteLength pre := by
      rw [next_offset, Text.byteLength_cons]
      omega
    rw [List.cons_append, seek, if_pos hlt, hstep, ih, after_cons]

end Position

namespace Source

variable {src : Source} {pre mid post : List Char}

theorem byteLength_eq (src : Source) : src.byteLength = Text.byteLength src.chars := by
  rw [byteLength, chars, ← Text.utf8ByteSize_ofList, String.ofList_toList]

theorem stop_offset (src : Source) : src.stop.offset = src.byteLength := by
  simp [stop, Position.origin, byteLength_eq]

theorem splitBytes?_append (pre post : List Char) :
    splitBytes? (Text.byteLength pre) (pre ++ post) = some (pre, post) := by
  induction pre with
  | nil => cases post <;> simp [splitBytes?]
  | cons c pre ih =>
    obtain ⟨n, hn⟩ : ∃ n, Text.byteLength (c :: pre) = n + 1 :=
      Nat.exists_eq_succ_of_ne_zero (Nat.ne_of_gt (Text.byteLength_pos (List.cons_ne_nil c pre)))
    have hsize : Text.byteLength (c :: pre) = c.utf8Size + Text.byteLength pre :=
      Text.byteLength_cons c pre
    have hle : c.utf8Size ≤ n + 1 := by omega
    have hrest : n + 1 - c.utf8Size = Text.byteLength pre := by omega
    rw [hn, List.cons_append, splitBytes?, if_pos hle, hrest, ih]
    rfl

/-- Both parts are what the text is put together from. -/
theorem eq_append_of_splitBytes? {n : Nat} {cs : List Char}
    (h : splitBytes? n cs = some (pre, post)) : cs = pre ++ post ∧ Text.byteLength pre = n := by
  induction cs generalizing n pre with
  | nil =>
    cases n with
    | zero =>
      obtain ⟨rfl, rfl⟩ : [] = pre ∧ [] = post := by simpa [splitBytes?] using h
      exact ⟨rfl, rfl⟩
    | succ n => cases h
  | cons c cs ih =>
    cases n with
    | zero =>
      obtain ⟨rfl, rfl⟩ : [] = pre ∧ c :: cs = post := by simpa [splitBytes?] using h
      exact ⟨rfl, rfl⟩
    | succ n =>
      rw [splitBytes?] at h
      split at h
      · next hle =>
        obtain ⟨⟨front, back⟩, hcut, heq⟩ := Option.map_eq_some_iff.1 h
        obtain ⟨rfl, rfl⟩ := Prod.mk.inj heq
        obtain ⟨rfl, hlength⟩ := ih hcut
        refine ⟨rfl, ?_⟩
        rw [Text.byteLength_cons]
        omega
      · cases h

/-- **The characters between two bytes** are those with as many bytes before them and up to their
end. -/
theorem between?_eq_some_iff {start stop : Nat} : src.between? start stop = some mid ↔
    ∃ pre post, src.chars = pre ++ mid ++ post ∧ Text.byteLength pre = start ∧
      Text.byteLength (pre ++ mid) = stop := by
  constructor
  · intro h
    simp only [between?, Option.bind_eq_bind] at h
    split at h
    · cases h
    · next hle =>
      obtain ⟨⟨pre, back⟩, hfirst, h⟩ := Option.bind_eq_some_iff.1 h
      obtain ⟨⟨front, post⟩, hsecond, h⟩ := Option.bind_eq_some_iff.1 h
      obtain rfl : front = mid := Option.some.inj h
      obtain ⟨hchars, hpre⟩ := eq_append_of_splitBytes? hfirst
      obtain ⟨rfl, hmid⟩ := eq_append_of_splitBytes? hsecond
      refine ⟨pre, post, by rw [hchars, List.append_assoc], hpre, ?_⟩
      rw [Text.byteLength_append]
      omega
  · rintro ⟨pre, post, hchars, rfl, rfl⟩
    have hle : ¬ Text.byteLength (pre ++ mid) < Text.byteLength pre := by
      rw [Text.byteLength_append]
      omega
    have hmid : Text.byteLength (pre ++ mid) - Text.byteLength pre = Text.byteLength mid := by
      rw [Text.byteLength_append]
      omega
    simp only [between?, hle, hmid, hchars, List.append_assoc, splitBytes?_append, ↓reduceIte,
      Option.bind_eq_bind, Option.bind_some]
    rfl

/-- **The piece of text between two bytes is the list of characters between them.** -/
theorem slice?_of_split (h : src.chars = pre ++ mid ++ post) :
    src.slice? ⟨Position.origin.after pre, Position.origin.after (pre ++ mid)⟩ =
      some (String.ofList mid) := by
  have hbetween : src.between? (Position.origin.after pre).offset
      (Position.origin.after (pre ++ mid)).offset = some mid :=
    between?_eq_some_iff.2 ⟨pre, post, h, by simp [Position.origin], by simp [Position.origin]⟩
  rw [slice?, hbetween]
  rfl

theorem slice?_front (h : src.chars = pre ++ post) :
    src.slice? ⟨.origin, Position.origin.after pre⟩ = some (String.ofList pre) := by
  have hsplit : src.chars = [] ++ pre ++ post := h
  exact slice?_of_split hsplit

/-- A text ends where nothing is left of it. -/
theorem offset_eq_byteLength_iff (h : src.chars = pre ++ post) :
    (Position.origin.after pre).offset = src.byteLength ↔ post = [] := by
  rw [byteLength_eq, h, Position.after_offset, Text.byteLength_append, Position.origin,
    Nat.zero_add]
  constructor
  · intro hlength
    refine Decidable.byContradiction fun hpost => ?_
    have := Text.byteLength_pos hpost
    omega
  · rintro rfl
    rfl

end Source

end Curly
