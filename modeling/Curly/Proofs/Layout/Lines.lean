import Curly.Proofs.Layout.Depth
import Curly.Proofs.Layout.RoundTrip
import Curly.Proofs.Token.Joined

/-!
# The lines of canonical text

Canonical text is one block of lines for each declaration, with an empty line after each. A line is
indented by its depth, which its tokens tell: as many levels as brackets are open where it begins,
less one if it begins with a closing bracket (`Line.StandsAt`). Style changes neither the depths
nor what stands after the indentation (`Source.exists_laidOut`).
-/

namespace Curly

namespace Layout

open Piece

/-! ## Lines -/

/-- A line of canonical text: how many levels it is indented by, and what comes after. -/
structure Line where
  depth : Nat
  text : List Char

/-- The line with its indentation. -/
def Line.chars (unit : List Char) (l : Line) : List Char := margin unit l.depth ++ l.text

/-- The lines of blocks, and after each block the empty line. -/
def rows (blocks : List (List Line)) : List (Option Line) :=
  blocks.flatMap fun block => block.map some ++ [none]

/-- Of the tokens `ts`, `t` is the first on a line that is not spacing, and `us` are those before
it. -/
structure FirstOnLine (ts : List Token) (line : Nat) (us : List Token) (t : Token) : Prop where
  isStart : us ++ [t] <+: ts
  onLine : t.span.start.line = line
  notSpacing : t.kind ≠ .spacing
  before : ∀ u ∈ us, u.span.start.line < line ∨ u.span.start.line = line ∧ u.kind = .spacing

/-- Among the tokens `ts` the line is the one with this number: where it begins as many brackets
are open as its depth says, once the bracket that it begins with is closed, if there is one. -/
def Line.StandsAt (l : Line) (ts : List Token) (line : Nat) : Prop :=
  ∃ us t, FirstOnLine ts line us t ∧
    us.countP (·.kind.opens) = l.depth + (us ++ [t]).countP (·.kind.closes)

/-! ## The lines of marks -/

/-- The pieces before the first line end. -/
def headRow : List Mark → List Piece
  | [] | .line _ :: _ => []
  | .piece x :: ms => x :: headRow ms

/-- The lines after the first line end. -/
def linesAfter : List Mark → List Line
  | [] => []
  | .piece _ :: ms => linesAfter ms
  | .line d :: ms => ⟨d, spell (headRow ms)⟩ :: linesAfter ms

/-- The lines of marks of which the first is at depth 0. -/
def markLines (ms : List Mark) : List Line := ⟨0, spell (headRow ms)⟩ :: linesAfter ms

variable {unit cs : List Char} {n n' : Nat} {e e' : Bool} {ms : List Mark} {ns : List Node}

theorem not_mem_margin (hunit : IsUnit unit) (d : Nat) : '\n' ∉ margin unit d := fun hmem =>
  (isUnit_margin hunit d _ hmem).elim (by decide) (by decide)

/-- **The lines of the text of marks** are those that they tell. -/
theorem segments_realize (hunit : IsUnit unit) (h : Runs n e ms n' e') (hcs : '\n' ∉ cs) :
    Text.segments (cs ++ spell (realize unit ms)) =
      (cs ++ spell (headRow ms)) :: (linesAfter ms).map (Line.chars unit) := by
  induction h generalizing cs with
  | nil => exact Text.pieces_of_not_mem (by simpa using hcs)
  | @piece _ _ _ _ _ x ms isFirm _ _ ih =>
    have hfront : '\n' ∉ cs ++ x.lexeme := by simp [hcs, isFirm.inline.noNewline]
    rw [realize_piece, spell_cons, ← List.append_assoc, ih hfront, headRow, spell_cons,
      List.append_assoc, linesAfter]
  | @line d _ _ x ms isFirm _ _ ih =>
    have hfront : '\n' ∉ margin unit d ++ x.lexeme := by
      simp [not_mem_margin hunit d, isFirm.inline.noNewline]
    rw [realize_line, realize_piece, spell_append, spell_lineBreak, List.cons_append,
      Text.segments, Text.pieces_append, Text.pieces_of_not_mem hcs, spell_cons,
      ← List.append_assoc, ← Text.segments, ih hfront]
    simp [headRow, linesAfter, Line.chars]

/-! ## Ends of lines -/

/-- A text that begins with no blank, and does not end with one if `e` says so. -/
structure Opened (e : Bool) (cs : List Char) : Prop where
  head : ∃ c ∈ cs.head?, Text.isBlank c = false
  last : e → ∃ c ∈ cs.getLast?, Text.isBlank c = false

theorem Opened.append {x : Piece} (h : Opened e cs) (hx : Firm x) :
    Opened (x.kind != .spacing) (cs ++ x.lexeme) := by
  obtain ⟨⟨c, hc, hblank⟩, -⟩ := h
  refine ⟨⟨c, ?_, hblank⟩, fun hkind => ?_⟩
  · rw [List.head?_append, Option.mem_def.1 hc]
    rfl
  · obtain ⟨d, hd, hblank⟩ := (hx.trimmed (bne_iff_ne.1 hkind)).last
    refine ⟨d, ?_, hblank⟩
    rw [List.getLast?_append, Option.mem_def.1 hd]
    rfl

/-- **No line begins or ends with a blank.** -/
theorem Runs.trimmed (h : Runs n e ms n' true) (hcs : Opened e cs) :
    Text.Trimmed (cs ++ spell (headRow ms)) ∧ ∀ l ∈ linesAfter ms, Text.Trimmed l.text := by
  generalize hlast : true = e' at h
  induction h generalizing cs with
  | nil =>
    subst hlast
    rw [headRow, spell_nil, List.append_nil]
    exact ⟨⟨hcs.head, hcs.last rfl⟩, nofun⟩
  | piece isFirm _ _ ih =>
    rw [headRow, spell_cons, ← List.append_assoc]
    exact ih (hcs.append isFirm) hlast
  | @line d _ _ x ms isFirm notSpacing _ ih =>
    have htrimmed := isFirm.trimmed notSpacing
    obtain ⟨hfirst, hlater⟩ := ih ⟨htrimmed.head, fun _ => htrimmed.last⟩ hlast
    rw [headRow, spell_nil, List.append_nil, linesAfter, headRow, spell_cons]
    exact ⟨⟨hcs.head, hcs.last rfl⟩, List.forall_mem_cons.2 ⟨hfirst, hlater⟩⟩

theorem Item.trimmed (h : Item 0 ms) : ∀ l ∈ markLines ms, Text.Trimmed l.text := by
  cases h with
  | @intro x ms isFirm notSpacing _ _ later =>
    have htrimmed := isFirm.trimmed notSpacing
    obtain ⟨hfirst, hlater⟩ := later.trimmed ⟨htrimmed.head, fun _ => htrimmed.last⟩
    exact List.forall_mem_cons.2 ⟨hfirst, hlater⟩

/-! ## Places of lines -/

theorem line_after_of_not_mem (p : Position) (h : '\n' ∉ cs) : (p.after cs).line = p.line := by
  have hlines := Position.after_line p cs
  rw [Text.segments, Text.pieces_of_not_mem h] at hlines
  exact Nat.add_right_cancel hlines

theorem line_le_after (p : Position) (cs : List Char) : p.line ≤ (p.after cs).line := by
  have hlines := Position.after_line p cs
  have hpos : 0 < (Text.segments cs).length := List.length_pos_iff.2 (Text.pieces_ne_nil _ _)
  omega

theorem line_le_of_mem_place {p : Position} {xs : List Piece} {t : Token} (h : t ∈ place p xs) :
    t.span.start.line ≤ (p.after (spell xs)).line := by
  induction xs generalizing p with
  | nil => cases h
  | cons x xs ih =>
    rw [spell_cons, Position.after_append]
    rcases List.mem_cons.1 h with rfl | h
    · exact (line_le_after p _).trans (line_le_after _ _)
    · exact ih h

theorem line_of_mem_place {p : Position} {xs : List Piece} {t : Token} (h : t ∈ place p xs)
    (hxs : '\n' ∉ spell xs) : t.span.start.line = p.line := by
  induction xs generalizing p with
  | nil => cases h
  | cons x xs ih =>
    rw [spell_cons, List.mem_append] at hxs
    obtain ⟨hx, hxs⟩ := not_or.1 hxs
    rcases List.mem_cons.1 h with rfl | h
    · rfl
    · rw [ih h hxs, line_after_of_not_mem p hx]

/-- A line end and an indentation lead to the next line. -/
theorem place_lineBreak (hunit : IsUnit unit) (p : Position) (d : Nat) :
    ∃ blanks, place p (lineBreak unit d) = newline.token p :: blanks ∧
      (p.after (spell (lineBreak unit d))).line = p.line + 1 ∧
      ∀ t ∈ blanks, t.span.start.line = p.line + 1 ∧ t.kind = .spacing := by
  have hmargin := not_mem_margin hunit d
  refine ⟨_, rfl, ?_, fun t ht => ⟨?_, ?_⟩⟩
  · rw [spell_lineBreak, Position.after_cons, line_after_of_not_mem _ hmargin]
    rfl
  · rw [line_of_mem_place ht (by rwa [spell_blanks])]
    rfl
  · obtain ⟨x, hx, q, rfl⟩ := exists_of_mem_place ht
    obtain ⟨c, -, rfl⟩ := List.mem_map.1 hx
    rfl

/-! ## Brackets before a line -/

theorem countP_cons_toNat {α : Type} (f : α → Bool) (x : α) (xs : List α) :
    (x :: xs).countP f = xs.countP f + (f x).toNat := by
  rw [List.countP_cons]
  cases f x <;> rfl

theorem countP_place (f : Token.Kind → Bool) (p : Position) (xs : List Piece) :
    (place p xs).countP (fun t => f t.kind) = xs.countP fun x => f x.kind := by
  induction xs generalizing p with
  | nil => rfl
  | cons x xs ih => rw [place_cons, List.countP_cons, ih, List.countP_cons, token_kind]

theorem countP_lineBreak (f : Token.Kind → Bool) (hnewline : f .newline = false)
    (hspacing : f .spacing = false) (unit : List Char) (d : Nat) :
    (lineBreak unit d).countP (fun x => f x.kind) = 0 := by
  refine List.countP_eq_zero.2 fun x hx => ?_
  rcases List.mem_cons.1 hx with rfl | hx
  · simp [newline, hnewline]
  · obtain ⟨c, -, rfl⟩ := List.mem_map.1 hx
    simp [blank, hspacing]

/-- As many brackets are open after the marks as they count. -/
theorem Runs.count (unit : List Char) (h : Runs n e ms n' e') :
    n + (realize unit ms).countP (·.kind.opens) =
      n' + (realize unit ms).countP (·.kind.closes) := by
  induction h with
  | nil => rfl
  | piece _ count _ ih =>
    rw [realize_piece, countP_cons_toNat, countP_cons_toNat]
    omega
  | @line d _ _ x ms _ _ _ ih =>
    rw [realize_line, realize_piece, List.countP_append, List.countP_append, countP_cons_toNat,
      countP_cons_toNat, countP_lineBreak _ rfl rfl, countP_lineBreak _ rfl rfl]
    omega

/-! ## Depths -/

variable {ts us vs : List Token} {p : Position} {d line : Nat} {x : Piece}

/-- Tokens that are on lines up to this one, with `n` brackets open after them. -/
structure UpTo (us : List Token) (n line : Nat) : Prop where
  lines : ∀ u ∈ us, u.span.start.line ≤ line
  count : us.countP (·.kind.opens) = n + us.countP (·.kind.closes)

theorem UpTo.append (h : UpTo us n line) (hle : line ≤ p.line) {xs : List Piece}
    (hcount : n + xs.countP (·.kind.opens) = n' + xs.countP (·.kind.closes)) :
    UpTo (us ++ place p xs) n' (p.after (spell xs)).line := by
  refine ⟨fun u hu => ?_, ?_⟩
  · rcases List.mem_append.1 hu with hu | hu
    · exact (h.lines u hu).trans (hle.trans (line_le_after p _))
    · exact line_le_of_mem_place hu
  · have hus := h.count
    rw [List.countP_append, List.countP_append, countP_place, countP_place]
    omega

/-- The line that a line end leads to stands at its depth, if that is right for its first
piece. -/
theorem standsAt_line (hunit : IsUnit unit)
    (hts : ts = us ++ place p (lineBreak unit d ++ [x]) ++ vs) (notSpacing : x.kind ≠ .spacing)
    (hus : UpTo us (d + x.kind.closes.toNat) p.line) (cs : List Char) :
    Line.StandsAt ⟨d, cs⟩ ts (p.line + 1) := by
  obtain ⟨blanks, hplace, hline, hblanks⟩ := place_lineBreak hunit p d
  have hbreak : UpTo (us ++ newline.token p :: blanks) (d + x.kind.closes.toNat) _ :=
    hplace ▸ hus.append le_rfl (by rw [countP_lineBreak _ rfl rfl, countP_lineBreak _ rfl rfl])
  rw [place_append, hplace, place_cons, place_nil] at hts
  refine ⟨us ++ newline.token p :: blanks, x.token (p.after (spell (lineBreak unit d))),
    ⟨⟨vs, ?_⟩, hline, notSpacing, ?_⟩, ?_⟩
  · rw [hts, List.append_assoc us]
  · intro u hu
    rcases List.mem_append.1 hu with hu | hu
    · exact .inl (Nat.lt_succ_of_le (hus.lines u hu))
    · rcases List.mem_cons.1 hu with rfl | hu
      · exact .inl (Nat.lt_succ_self _)
      · exact .inr (hblanks u hu)
  · have hcount := hbreak.count
    generalize us ++ newline.token p :: blanks = before at hcount ⊢
    show before.countP _ = d + _
    rw [List.countP_append, countP_cons_toNat, List.countP_nil, token_kind]
    omega

/-- **Every line of marks stands at its depth**, wherever the marks are placed. -/
theorem Runs.standsAt (hunit : IsUnit unit) (h : Runs n e ms n' e')
    (hts : ts = us ++ place p (realize unit ms) ++ vs) (hus : UpTo us n p.line) :
    ∀ (i : Nat) (l : Line), (linesAfter ms)[i]? = some l → l.StandsAt ts (p.line + 1 + i) := by
  induction h generalizing us p with
  | nil => exact nofun
  | @piece n n₁ _ _ _ x ms isFirm count _ ih =>
    have hcount : n + [x].countP (·.kind.opens) = n₁ + [x].countP (·.kind.closes) := by
      simpa only [countP_cons_toNat, List.countP_nil, Nat.zero_add] using count
    rw [realize_piece, ← List.singleton_append, place_append, ← List.append_assoc] at hts
    have hlater := ih hts (hus.append le_rfl hcount)
    rwa [line_after_of_not_mem p (by simpa using isFirm.inline.noNewline)] at hlater
  | @line d _ _ x ms isFirm notSpacing _ ih =>
    rw [realize_line, realize_piece, List.append_cons, place_append, ← List.append_assoc] at hts
    intro i l hl
    rcases i with _ | i
    · obtain rfl := Option.some.inj hl
      rw [List.append_assoc _ _ vs] at hts
      exact standsAt_line hunit hts notSpacing hus _
    · have hcount : d + x.kind.closes.toNat +
          (lineBreak unit d ++ [x]).countP (·.kind.opens) = d + x.kind.opens.toNat +
            (lineBreak unit d ++ [x]).countP (·.kind.closes) := by
        rw [List.countP_append, List.countP_append, countP_lineBreak _ rfl rfl,
          countP_lineBreak _ rfl rfl, countP_cons_toNat, countP_cons_toNat]
        simp only [List.countP_nil]
        omega
      have hnext : (p.after (spell (lineBreak unit d ++ [x]))).line = p.line + 1 := by
        obtain ⟨-, -, hline, -⟩ := place_lineBreak hunit p d
        rw [spell_append, Position.after_append, line_after_of_not_mem _
          (by simpa using isFirm.inline.noNewline), hline]
      have hlater := ih hts (hus.append le_rfl hcount) i l hl
      rwa [hnext, Nat.add_assoc (p.line + 1), Nat.add_comm 1 i] at hlater

/-! ## Blocks -/

variable {items : List (List Mark)} {block : List Line} {blocks : List (List Line)}

@[simp] theorem rows_nil : rows [] = [] := rfl

theorem rows_cons : rows (block :: blocks) = block.map some ++ none :: rows blocks := by
  simp [rows]

/-- The line with a number is in the first block or after it. -/
theorem getElem?_rows_cons {i : Nat} {l : Line}
    (h : (rows (block :: blocks))[i]? = some (some l)) :
    block[i]? = some l ∨ ∃ j, i = block.length + 1 + j ∧ (rows blocks)[j]? = some (some l) := by
  rw [rows_cons] at h
  by_cases hi : i < block.length
  · rw [List.getElem?_append_left (by simpa using hi), List.getElem?_map] at h
    obtain ⟨l', hl', hl⟩ := Option.map_eq_some_iff.1 h
    exact .inl (by rw [hl', Option.some.inj hl])
  · rw [List.getElem?_append_right (by simpa using hi), List.length_map] at h
    cases hj : i - block.length with
    | zero =>
      rw [hj] at h
      cases h
    | succ j =>
      rw [hj] at h
      exact .inr ⟨j, by omega, h⟩

theorem line_after_realize (hunit : IsUnit unit) (h : Runs n e ms n' e') (p : Position) :
    (p.after (spell (realize unit ms))).line = p.line + (linesAfter ms).length := by
  have hlines := Position.after_line p (spell (realize unit ms))
  have hsegments := segments_realize hunit h List.not_mem_nil
  rw [List.nil_append] at hsegments
  rw [hsegments, List.length_cons, List.length_map] at hlines
  omega

/-- Every line of a block stands at its depth. -/
theorem Item.standsAt (hunit : IsUnit unit) (h : Item 0 ms)
    (hts : ts = us ++ place p (realize unit ms) ++ vs) (hus : UpTo us 0 line)
    (hline : line < p.line) :
    ∀ (i : Nat) (l : Line), (markLines ms)[i]? = some l → l.StandsAt ts (p.line + i) := by
  have hruns : Runs 0 true ms 0 true := h.runs
  have hlater := hruns.standsAt hunit hts ⟨fun u hu => (hus.lines u hu).trans hline.le, hus.count⟩
  intro i l hl
  rcases i with _ | i
  · cases h with
    | @intro x ms _ notSpacing _ noClosing _ =>
      obtain rfl := Option.some.inj hl
      refine ⟨us, x.token p, ⟨?_, rfl, notSpacing, fun u hu => ?_⟩, ?_⟩
      · refine ⟨place (p.after x.lexeme) (realize unit ms) ++ vs, ?_⟩
        rw [hts, realize_piece, place_cons]
        simp
      · exact .inl ((hus.lines u hu).trans_lt hline)
      · have hcount := hus.count
        show us.countP _ = 0 + _
        rw [List.countP_append, countP_cons_toNat, List.countP_nil, token_kind, noClosing]
        simpa using hcount
  · have hstands := hlater i l hl
    rwa [Nat.add_assoc, Nat.add_comm 1 i] at hstands

/-- The empty line after a block. -/
theorem UpTo.emptyLine (h : UpTo us 0 p.line) :
    UpTo (us ++ place p [newline, newline]) 0 (p.line + 1) := by
  refine ⟨List.forall_mem_append.2 ⟨fun u hu => (h.lines u hu).trans (Nat.le_succ _), ?_⟩, ?_⟩
  · exact List.forall_mem_cons.2 ⟨Nat.le_succ _, List.forall_mem_singleton.2 le_rfl⟩
  · rw [List.countP_append, List.countP_append, h.count]
    rfl

/-- **Every line of blocks stands at its depth.** -/
theorem standsAt_rows (hunit : IsUnit unit) (h : ∀ ms ∈ items, Item 0 ms)
    (hts : ts = us ++ place p (items.flatMap fun ms => realize unit ms ++ [newline, newline]) ++ vs)
    (hus : UpTo us 0 line) (hline : line < p.line) :
    ∀ (i : Nat) (l : Line), (rows (items.map markLines))[i]? = some (some l) →
      l.StandsAt ts (p.line + i) := by
  induction items generalizing us p line with
  | nil => exact nofun
  | cons ms items ih =>
    obtain ⟨hms, hitems⟩ := List.forall_mem_cons.1 h
    have hruns : Runs 0 true ms 0 true := hms.runs
    obtain ⟨q, hq⟩ : ∃ q, q = p.after (spell (realize unit ms)) := ⟨_, rfl⟩
    have hblock : UpTo (us ++ place p (realize unit ms)) 0 q.line :=
      hq ▸ hus.append hline.le (hruns.count unit)
    have hqline := line_after_realize hunit hruns p
    rw [← hq] at hqline
    rw [List.flatMap_cons, place_append, place_append, spell_append, Position.after_append, ← hq,
      ← List.append_assoc us, ← List.append_assoc us] at hts
    intro i l hl
    rcases getElem?_rows_cons hl with hl | ⟨j, rfl, hj⟩
    · rw [List.append_assoc _ _ vs, List.append_assoc _ (place q _)] at hts
      exact hms.standsAt hunit hts hus hline i l hl
    · have hlater := ih hitems hts hblock.emptyLine (Nat.lt_succ_self _) j l hj
      have hlength : (markLines ms).length = (linesAfter ms).length + 1 := rfl
      have hnext : (q.after (spell [newline, newline])).line = q.line + 2 := rfl
      rw [hnext, hqline] at hlater
      rw [hlength]
      convert hlater using 1
      omega

/-! ## Canonical text -/

/-- The lines of a text of blocks, with the indentation of each. -/
theorem segments_rows (hunit : IsUnit unit) (h : ∀ ms ∈ items, Item 0 ms) :
    Text.segments (spell (items.flatMap fun ms => realize unit ms ++ [newline, newline])) =
      (rows (items.map markLines)).map (fun row => (row.map (Line.chars unit)).getD []) ++
        [[]] := by
  induction items with
  | nil => rfl
  | cons ms items ih =>
    obtain ⟨hms, hitems⟩ := List.forall_mem_cons.1 h
    have hruns : Runs 0 true ms 0 true := hms.runs
    have hsegments := segments_realize hunit hruns List.not_mem_nil
    rw [List.nil_append] at hsegments
    have hspell : spell ((ms :: items).flatMap fun ms => realize unit ms ++ [newline, newline]) =
        spell (realize unit ms) ++ '\n' :: ([] ++ '\n' ::
          spell (items.flatMap fun ms => realize unit ms ++ [newline, newline])) := by
      rw [List.flatMap_cons, spell_append, spell_append, List.append_assoc]
      rfl
    simp only [Text.segments] at ih hsegments ⊢
    rw [hspell, Text.pieces_append, Text.pieces_append, hsegments, ih hitems, List.map_cons,
      rows_cons]
    simp [markLines, Line.chars, margin_zero, Text.pieces]

/-- The text of each declaration is spelled by its pieces. -/
theorem map_nodeText (hunit : IsUnit unit) (h : Legal ns) :
    (declarations ns).map (nodeText unit) = (declPieces unit 0 ns).map spell := by
  have hone : ∀ {n : Node}, Legal [n] → n.isTrivia = false →
      nodeText unit n = spell (nodePieces unit 0 n) := by
    intro n hn hdecl
    have hblocks := blocks_declPieces hunit hn
    rw [declPieces_of_decl hdecl, nodesText_of_decl hdecl] at hblocks
    have htext : spell (nodePieces unit 0 n) ++ "\n\n".toList =
        nodeText unit n ++ "\n\n".toList := by
      simpa [blocks, declPieces, nodesText] using hblocks
    exact (List.append_cancel_right htext).symm
  induction h with
  | nil => rfl
  | @trivia n ns isTrivia _ ih =>
    rw [declPieces_of_trivia isTrivia, ← ih, declarations_of_trivia isTrivia]
  | @use_ d ns decl _ ih =>
    rw [declPieces_of_decl rfl, List.map_cons, ← ih, ← hone (.use_ decl .nil) rfl]
    rfl
  | @enum d ns decl _ ih =>
    rw [declPieces_of_decl rfl, List.map_cons, ← ih, ← hone (.enum decl .nil) rfl]
    rfl
  | @fn head body ns span isHead isBody _ _ ih =>
    rw [declPieces_of_decl rfl, List.map_cons, ← ih, ← hone (.fn isHead isBody .nil) rfl]
    rfl

theorem nodesText_eq_flatMap (unit : List Char) (ns : List Node) :
    nodesText unit ns = (declarations ns).flatMap fun n => nodeText unit n ++ "\n\n".toList := by
  induction ns with
  | nil => rfl
  | cons n ns ih =>
    cases h : n.isTrivia
    · rw [nodesText_of_decl h, declarations_of_decl h, List.flatMap_cons, ih]
    · rw [nodesText_of_trivia h, declarations_of_trivia h, ih]

/-- What it means that a text of declarations is laid out in these blocks of lines. -/
structure LaidOut (unit : List Char) (ns : List Node) (blocks : List (List Line))
    (text : String) : Prop where
  /-- The declarations come one after the other, each with an empty line after it. -/
  joined : text.toList =
    (declarations ns).flatMap fun n => nodeText unit n ++ "\n\n".toList
  /-- The lines of each declaration are those of its block. -/
  cut : (declarations ns).map (fun n => Text.segments (nodeText unit n)) =
    blocks.map fun block => block.map (Line.chars unit)
  /-- The lines of the text are those of the blocks, an empty one after each, and nothing after the
  last line end. -/
  lines : Text.segments text.toList =
    (rows blocks).map (fun row => (row.map (Line.chars unit)).getD []) ++ [[]]
  /-- Each line of a block has the depth that the tokens before it say. -/
  depths : ∀ name, ∃ ts, (Source.mk name text).tokens? = .ok ts ∧
    ∀ (i : Nat) (l : Line), (rows blocks)[i]? = some (some l) → l.StandsAt ts (i + 1)

theorem laidOut_of_items (hunit : IsUnit unit) (h : Legal ns) (hitems : ∀ ms ∈ items, Item 0 ms)
    (hrealize : declPieces unit 0 ns = items.map (realize unit)) :
    LaidOut unit ns (items.map markLines) (String.ofList (nodesText unit ns)) := by
  have hpieces : programPieces unit ns =
      items.flatMap fun ms => realize unit ms ++ [newline, newline] := by
    rw [programPieces, hrealize, List.flatMap_map]
  constructor
  · rw [String.toList_ofList, nodesText_eq_flatMap]
  · have hmap := congrArg (List.map Text.segments) (map_nodeText hunit h)
    rw [hrealize, List.map_map, List.map_map, List.map_map] at hmap
    rw [List.map_map]
    refine hmap.trans (List.map_congr_left fun ms hms => ?_)
    have hruns : Runs 0 true ms 0 true := (hitems ms hms).runs
    have hsegments := segments_realize hunit hruns List.not_mem_nil
    simpa [markLines, Line.chars, margin_zero] using hsegments
  · rw [String.toList_ofList, ← spell_programPieces hunit h, hpieces, segments_rows hunit hitems]
  · intro name
    have hchars : (Source.mk name (String.ofList (nodesText unit ns))).chars = nodesText unit ns :=
      String.toList_ofList
    have htokens := tokens?_text hunit h hchars
    rw [hpieces] at htokens
    have hnone : UpTo [] 0 0 := ⟨List.forall_mem_nil _, rfl⟩
    refine ⟨_, htokens, fun i l hl => ?_⟩
    rw [Nat.add_comm]
    exact standsAt_rows hunit hitems (List.nil_append _).symm hnone Nat.one_pos i l hl

end Layout

namespace Source

open Layout

/-- **The law of canonical layout.** Of every program there are blocks of lines, each line a depth
and a text that neither begins nor ends with a blank, such that in every style its canonical text
is laid out in these blocks. -/
theorem exists_laidOut {src : Source} {p : Program} (h : src.parse = .ok p) :
    ∃ blocks : List (List Line), (∀ block ∈ blocks, ∀ l ∈ block, Text.Trimmed l.text) ∧
      ∀ style : Style, ∃ text, src.format style = .ok text ∧
        LaidOut style.unit p.children blocks text := by
  have hlegal := legal_of_parse h
  obtain ⟨items, hitems, hrealize⟩ := exists_marks hlegal 0
  refine ⟨items.map markLines, fun block hblock => ?_, fun style => ?_⟩
  · obtain ⟨ms, hms, rfl⟩ := List.mem_map.1 hblock
    exact (hitems ms hms).trimmed
  · exact ⟨_, format_of_parse style h,
      laidOut_of_items (isUnit_unit style) hlegal hitems (hrealize _)⟩

/-- An enumeration after an arrow, with a value on a line of its own. -/
theorem exists_laidOut_arrow :
    ∃ p, (⟨"a", "fn f() \x7b enum E \x7bA\x7d \x7d"⟩ : Source).parse = .ok p ∧
      ∃ blocks : List (List Line), (∀ block ∈ blocks, ∀ l ∈ block, Text.Trimmed l.text) ∧
        ∀ style : Style, ∃ text,
          (⟨"a", "fn f() \x7b enum E \x7bA\x7d \x7d"⟩ : Source).format style = .ok text ∧
          LaidOut style.unit p.children blocks text := by
  have hparse : (⟨"a", "fn f() \x7b enum E \x7bA\x7d \x7d"⟩ : Source).parse = .ok ⟨"a",
      [.fn ⟨"f", [], none, false⟩
        [.spacing ⟨⟨1, 9, 8⟩, ⟨1, 10, 9⟩⟩,
          .enum ⟨"E", [⟨"A", ⟨⟨1, 18, 17⟩, ⟨1, 19, 18⟩⟩⟩], ⟨⟨1, 10, 9⟩, ⟨1, 20, 19⟩⟩⟩,
          .spacing ⟨⟨1, 20, 19⟩, ⟨1, 21, 20⟩⟩]
        ⟨⟨1, 1, 0⟩, ⟨1, 22, 21⟩⟩]⟩ := by decide +kernel
  exact ⟨_, hparse, exists_laidOut hparse⟩

end Source

end Curly
