import Curly.Proofs.Layout.Printed

/-!
# The depth of lines

Canonical layout without the blanks in front of its lines: marks tell the pieces and, for each
line end, the depth of the line after it, and are the same whatever a level of indentation is
written with (`exists_marks`). `Runs` counts through marks how many brackets are open. The depth of
a line is this number where its first piece stands, less one if that piece closes a bracket.
-/

namespace Curly

/-- Whether a token of this kind opens a list or a body. -/
def Token.Kind.opens : Token.Kind → Bool
  | .lbrace | .lparen => true
  | _ => false

/-- Whether a token of this kind closes a list or a body. -/
def Token.Kind.closes : Token.Kind → Bool
  | .rbrace | .rparen => true
  | _ => false

/-- A text that neither begins nor ends with a blank. -/
structure Text.Trimmed (cs : List Char) : Prop where
  head : ∃ c ∈ cs.head?, Text.isBlank c = false
  last : ∃ c ∈ cs.getLast?, Text.isBlank c = false

theorem Text.trimmed_singleton {c : Char} (h : Text.isBlank c = false) : Text.Trimmed [c] :=
  ⟨⟨c, rfl, h⟩, c, rfl, h⟩

namespace Layout

open Piece

/-! ## Marks -/

/-- A piece of canonical layout, or a line end and the depth of the line after it. -/
inductive Mark
  | piece (x : Piece)
  | line (depth : Nat)

/-- The pieces of a mark. -/
def Mark.pieces (unit : List Char) : Mark → List Piece
  | .piece x => [x]
  | .line d => lineBreak unit d

/-- The pieces of marks. -/
def realize (unit : List Char) (ms : List Mark) : List Piece := ms.flatMap (Mark.pieces unit)

variable {unit : List Char} {n n₁ n' d : Nat} {e e₁ e' : Bool} {x : Piece} {ms ms' : List Mark}

@[simp] theorem realize_nil : realize unit [] = [] := rfl

@[simp] theorem realize_piece : realize unit (.piece x :: ms) = x :: realize unit ms := rfl

@[simp] theorem realize_line :
    realize unit (.line d :: ms) = lineBreak unit d ++ realize unit ms := List.flatMap_cons

@[simp] theorem realize_append : realize unit (ms ++ ms') = realize unit ms ++ realize unit ms' :=
  List.flatMap_append

/-! ## Firm pieces -/

/-- A piece inside a line that is a blank or has none at its ends. -/
structure Firm (x : Piece) : Prop where
  inline : Inline x
  trimmed : x.kind ≠ .spacing → Text.Trimmed x.lexeme

theorem firm_space : Firm space := ⟨inline_space, fun h => absurd rfl h⟩

theorem firm_lbrace : Firm lbrace := ⟨inline_lbrace, fun _ => Text.trimmed_singleton rfl⟩

theorem firm_rbrace : Firm rbrace := ⟨inline_rbrace, fun _ => Text.trimmed_singleton rfl⟩

theorem firm_lparen : Firm lparen := ⟨inline_lparen, fun _ => Text.trimmed_singleton rfl⟩

theorem firm_rparen : Firm rparen := ⟨inline_rparen, fun _ => Text.trimmed_singleton rfl⟩

theorem firm_colon : Firm colon := ⟨inline_colon, fun _ => Text.trimmed_singleton rfl⟩

theorem firm_asterisk : Firm asterisk := ⟨inline_asterisk, fun _ => Text.trimmed_singleton rfl⟩

theorem firm_arrow : Firm arrow := ⟨inline_arrow, fun _ => ⟨⟨'-', rfl, rfl⟩, '>', rfl, rfl⟩⟩

theorem isBlank_of_isWordChar {c : Char} (h : Scanner.isWordChar c) : Text.isBlank c = false := by
  have hcode : 48 ≤ c.toNat ∧ c.toNat ≤ 122 := by
    simp only [Scanner.isWordChar, Char.isAlphanum, Scanner.isAlpha_iff, Char.isDigit,
      Bool.or_eq_true, Bool.and_eq_true, decide_eq_true_eq, beq_iff_eq, ge_iff_le,
      UInt32.le_iff_toNat_le] at h
    change ((((65 ≤ c.toNat ∧ c.toNat ≤ 90) ∨ (97 ≤ c.toNat ∧ c.toNat ≤ 122)) ∨
      (48 ≤ c.toNat ∧ c.toNat ≤ 57)) ∨ c = '_') at h
    rcases h with h | rfl
    · omega
    · decide
  simp only [Text.isBlank, Bool.or_eq_false_iff, Bool.and_eq_false_iff, decide_eq_false_iff_not,
    beq_eq_false_iff_ne]
  omega

theorem trimmed_of_isWord {cs : List Char} (h : IsWord cs) : Text.Trimmed cs := by
  have hall : ∀ c ∈ cs, Text.isBlank c = false := fun c hc =>
    isBlank_of_isWordChar (isWordChar_of_mem h hc)
  cases h with
  | @intro c cs =>
    have hlast := List.getLast?_eq_some_getLast (List.cons_ne_nil c cs)
    exact ⟨⟨c, rfl, hall c List.mem_cons_self⟩, _, hlast, hall _ (List.getLast_mem _)⟩

theorem firm_word {s : String} (h : IsWord s.toList) : Firm (word s) :=
  ⟨inline_word h, fun _ => trimmed_of_isWord h⟩

theorem firm_keyword (k : Keyword) : Firm (keyword k) :=
  ⟨inline_keyword k, fun _ => trimmed_of_isWord (isWord_spelling k)⟩

theorem firm_quoted {s : String} (h : IsSpecifier s) : Firm (quoted s) := by
  refine ⟨inline_quoted h, fun _ => ⟨⟨'\'', rfl, rfl⟩, '\'', ?_, rfl⟩⟩
  simp [quoted, List.getLast?_cons]

/-! ## Counting brackets -/

/-- `Runs n e ms n' e'`: with `n` brackets open before the marks there are `n'` open after them.
`e` and `e'` tell whether what comes before and what is last may end a line. A line after another
has the depth of the brackets that are open when its first piece has been closed, if it closes
any, and not yet opened. -/
inductive Runs : Nat → Bool → List Mark → Nat → Bool → Prop
  | nil {n : Nat} {e : Bool} : Runs n e [] n e
  | piece {n n₁ n' : Nat} {e e' : Bool} {x : Piece} {ms : List Mark} (isFirm : Firm x)
    (count : n + x.kind.opens.toNat = n₁ + x.kind.closes.toNat)
    (later : Runs n₁ (x.kind != .spacing) ms n' e') : Runs n e (.piece x :: ms) n' e'
  | line {d n' : Nat} {e' : Bool} {x : Piece} {ms : List Mark} (isFirm : Firm x)
    (notSpacing : x.kind ≠ .spacing) (later : Runs (d + x.kind.opens.toNat) true ms n' e') :
    Runs (d + x.kind.closes.toNat) true (.line d :: .piece x :: ms) n' e'

theorem Runs.append (h : Runs n e ms n₁ e₁) (h' : Runs n₁ e₁ ms' n' e') :
    Runs n e (ms ++ ms') n' e' := by
  induction h with
  | nil => exact h'
  | piece isFirm count _ ih => exact .piece isFirm count (ih h')
  | line isFirm notSpacing _ ih => exact .line isFirm notSpacing (ih h')

theorem Runs.plain (hx : Firm x) (hopens : x.kind.opens = false) (hcloses : x.kind.closes = false)
    (later : Runs n (x.kind != .spacing) ms n' e') : Runs n e (.piece x :: ms) n' e' :=
  .piece hx (by rw [hopens, hcloses]) later

theorem Runs.space (later : Runs n false ms n' e') : Runs n e (.piece space :: ms) n' e' :=
  .plain firm_space rfl rfl later

theorem kind_word {s : String} (h : IsTypeName s) :
    (word s).kind = .identifier ∨ ∃ b, (word s).kind = .builtin b := by
  obtain ⟨-, hkind | ⟨b, hkind⟩⟩ := h
  · exact .inl (word_kind hkind)
  · exact .inr ⟨b, word_kind hkind⟩

theorem Runs.word {s : String} (h : IsTypeName s) (later : Runs n true ms n' e') :
    Runs n e (.piece (word s) :: ms) n' e' := by
  rcases kind_word h with hkind | ⟨b, hkind⟩ <;>
    exact .plain (firm_word h.1) (by rw [hkind]; rfl) (by rw [hkind]; rfl)
      (by rw [hkind]; exact later)

/-- What stands on lines of its own at depth `d`: its first piece is no bracket, and nothing is
left open. -/
inductive Item (d : Nat) : List Mark → Prop
  | intro {x : Piece} {ms : List Mark} (isFirm : Firm x) (notSpacing : x.kind ≠ .spacing)
    (noOpening : x.kind.opens = false) (noClosing : x.kind.closes = false)
    (later : Runs d true ms d true) : Item d (.piece x :: ms)

theorem Item.runs (h : Item d ms) : Runs d e ms d true := by
  cases h with
  | @intro x _ isFirm notSpacing noOpening noClosing later =>
    refine .plain isFirm noOpening noClosing ?_
    rwa [bne_iff_ne.2 notSpacing]

theorem Item.runs_line (h : Item d ms) : Runs d true (.line d :: ms) d true := by
  cases h with
  | @intro x ms isFirm notSpacing noOpening noClosing later =>
    have hline : Runs (d + x.kind.closes.toNat) true (.line d :: .piece x :: ms) d true := by
      refine .line isFirm notSpacing ?_
      rwa [noOpening]
    rwa [noClosing] at hline

theorem Item.word {s : String} (h : IsTypeName s) (later : Runs d true ms d true) :
    Item d (.piece (word s) :: ms) := by
  rcases kind_word h with hkind | ⟨b, hkind⟩ <;>
    exact .intro (firm_word h.1) (by rw [hkind]; exact nofun) (by rw [hkind]; rfl)
      (by rw [hkind]; rfl) later

/-! ## Lists -/

/-- A list of items and the bracket that closes it, with each item on lines of its own. -/
def listMarks (d : Nat) (items : List (List Mark)) (closing : Piece) : List Mark :=
  if items.isEmpty then [.piece closing]
  else items.flatMap (.line (d + 1) :: ·) ++ [.line d, .piece closing]

theorem realize_listMarks (d : Nat) (items : List (List Mark)) (closing : Piece) :
    realize unit (listMarks d items closing) =
      entryPieces unit d (items.map (realize unit)) ++ [closing] := by
  have hlines : realize unit (items.flatMap (.line (d + 1) :: ·)) =
      (items.map (realize unit)).flatMap fun e => lineBreak unit (d + 1) ++ e := by
    induction items with
    | nil => rfl
    | cons ms items ih =>
      rw [List.flatMap_cons, realize_append, ih, realize_line, List.map_cons, List.flatMap_cons]
  rw [listMarks, entryPieces, List.isEmpty_map]
  split
  · rfl
  · rw [realize_append, hlines]
    simp

/-- **A list closes what its opening bracket has opened.** -/
theorem runs_listMarks {items : List (List Mark)} {closing : Piece}
    (h : ∀ ms ∈ items, Item (d + 1) ms) (hclosing : closing = rbrace ∨ closing = rparen) :
    Runs (d + 1) true (listMarks d items closing) d true := by
  have hlast : Runs (d + 1) true [.line d, .piece closing] d true := by
    rcases hclosing with rfl | rfl
    · exact .line firm_rbrace nofun .nil
    · exact .line firm_rparen nofun .nil
  have hlines : Runs (d + 1) true (items.flatMap (.line (d + 1) :: ·)) (d + 1) true := by
    induction items with
    | nil => exact .nil
    | cons ms items ih =>
      obtain ⟨hms, hitems⟩ := List.forall_mem_cons.1 h
      exact hms.runs_line.append (ih hitems)
  rw [listMarks]
  split
  · rcases hclosing with rfl | rfl
    · exact .piece firm_rbrace rfl .nil
    · exact .piece firm_rparen rfl .nil
  · exact hlines.append hlast

/-- Names on lines of their own. -/
theorem exists_words {β : Type} {xs : List β} {f : β → String} (h : ∀ x ∈ xs, IsName (f x))
    (d : Nat) : ∃ items : List (List Mark), (∀ ms ∈ items, Item d ms) ∧
      ∀ unit, xs.map (fun x => [word (f x)]) = items.map (realize unit) := by
  refine ⟨xs.map fun x => [.piece (word (f x))], ?_, fun unit => ?_⟩
  · intro ms hms
    obtain ⟨x, hx, rfl⟩ := List.mem_map.1 hms
    exact .word (h x hx).isTypeName .nil
  · rw [List.map_map]
    rfl

theorem exists_params {params : List Param}
    (h : ∀ p ∈ params, IsName p.name ∧ IsTypeName p.type) (d : Nat) :
    ∃ items : List (List Mark), (∀ ms ∈ items, Item d ms) ∧
      ∀ unit, params.map paramPieces = items.map (realize unit) := by
  refine ⟨params.map fun p => (paramPieces p).map .piece, ?_, fun unit => ?_⟩
  · intro ms hms
    obtain ⟨p, hp, rfl⟩ := List.mem_map.1 hms
    obtain ⟨hname, htype⟩ := h p hp
    exact .word hname.isTypeName (.space (.word htype .nil))
  · rw [List.map_map]
    rfl

/-! ## Declarations -/

theorem exists_useMarks {decl : UseDecl} (h : decl.Legal) (d : Nat) :
    ∃ ms, Item d ms ∧ ∀ unit, usePieces unit d decl = realize unit ms := by
  have hopening : ∀ {ms}, Runs d true ms d true →
      Item d (.piece (keyword .use_) :: .piece space :: .piece (quoted decl.specifier) :: ms) :=
    fun hms => .intro (firm_keyword _) nofun rfl rfl
      (.space (.plain (firm_quoted h.specifier) rfl rfl hms))
  have hcolon : ∀ {ms}, Runs (d + 1) true ms d true →
      Runs d true (.piece colon :: .piece lbrace :: ms) d true :=
    fun hms => .plain firm_colon rfl rfl (.piece firm_lbrace rfl hms)
  obtain ⟨specifier, _ | _ | ns, span⟩ := decl
  · exact ⟨_, hopening .nil, fun unit => rfl⟩
  · exact ⟨_, hopening (hcolon (.plain firm_asterisk rfl rfl (.piece firm_rbrace rfl .nil))),
      fun unit => rfl⟩
  · obtain - | ⟨-, hns⟩ := h.includes _ rfl
    obtain ⟨items, hitems, hrealize⟩ := exists_words hns (d + 1)
    refine ⟨_, hopening (hcolon (runs_listMarks hitems (.inl rfl))), fun unit => ?_⟩
    simp only [realize_piece, realize_listMarks, ← hrealize unit]
    rfl

theorem exists_enumMarks {decl : EnumDecl} (h : decl.Legal) (d : Nat) :
    ∃ ms, Item d ms ∧ ∀ unit, enumPieces unit d decl = realize unit ms := by
  obtain ⟨items, hitems, hrealize⟩ := exists_words h.values (d + 1)
  refine ⟨.piece (keyword .enum) :: .piece space :: .piece (word decl.name) :: .piece space ::
    .piece lbrace :: listMarks d items rbrace, ?_, fun unit => ?_⟩
  · exact .intro (firm_keyword _) nofun rfl rfl (.space (.word h.name.isTypeName (.space
      (.piece firm_lbrace rfl (runs_listMarks hitems (.inl rfl))))))
  · simp only [realize_piece, realize_listMarks, ← hrealize unit]
    rfl

/-- The marks of a function up to its body, after the keyword. -/
theorem exists_headMarks {head : FnHead} (h : head.Legal) (d : Nat) :
    ∃ ms, Runs d true ms d false ∧
      ∀ unit, headPieces unit d head = realize unit (.piece (keyword .fn) :: ms) := by
  obtain ⟨items, hitems, hrealize⟩ := exists_params h.params (d + 1)
  have hopening : ∀ {ms}, Runs d true ms d false → Runs d true (.piece space ::
      .piece (word head.name) :: .piece lparen :: (listMarks d items rparen ++ ms)) d false :=
    fun hms => .space (.word h.name.isTypeName
      (.piece firm_lparen rfl ((runs_listMarks hitems (.inr rfl)).append hms)))
  obtain ⟨name, params, _ | type, arrow⟩ := head
  · refine ⟨_, hopening (.space .nil), fun unit => ?_⟩
    simp only [realize_piece, realize_append, realize_listMarks, ← hrealize unit]
    simp [headPieces, returnsPieces]
  · refine ⟨_, hopening (.space (.word (h.returns type rfl) (.space .nil))), fun unit => ?_⟩
    simp only [realize_piece, realize_append, realize_listMarks, ← hrealize unit]
    simp [headPieces, returnsPieces]

/-- The marks of a body, given those of its declarations at the depth of the function and one
level further in. -/
theorem exists_bodyMarks {count : Nat} {same further : List (List Mark)}
    (hsame : ∀ ms ∈ same, Item d ms) (hfurther : ∀ ms ∈ further, Item (d + 1) ms)
    (hcount : same.length = count) (hcount' : further.length = count) :
    ∃ ms, Runs d false ms d true ∧ ∀ unit,
      bodyPieces unit d count (same.map (realize unit)) (further.map (realize unit)) =
        realize unit ms := by
  rcases count with _ | _ | count
  · exact ⟨[.piece lbrace, .piece rbrace], .piece firm_lbrace rfl (.piece firm_rbrace rfl .nil),
      fun unit => rfl⟩
  · obtain ⟨ms, rfl⟩ := List.length_eq_one_iff.1 hcount
    refine ⟨.piece arrow :: .piece space :: ms, .plain firm_arrow rfl rfl (.space ?_),
      fun unit => ?_⟩
    · exact (hsame ms List.mem_cons_self).runs
    · rw [List.map_singleton, bodyPieces_one]
      rfl
  · refine ⟨.piece lbrace :: listMarks d further rbrace, .piece firm_lbrace rfl
      (runs_listMarks hfurther (.inl rfl)), fun unit => ?_⟩
    have hne : further ≠ [] := List.ne_nil_of_length_pos (by omega)
    rw [realize_piece, realize_listMarks, entryPieces, if_neg (by simpa using hne),
      bodyPieces_many]
    simp

/-- **The marks of the declarations of a legal tree**, the same for every unit of indentation. -/
theorem exists_marks {ns : List Node} (h : Legal ns) (d : Nat) :
    ∃ items : List (List Mark), (∀ ms ∈ items, Item d ms) ∧
      ∀ unit, declPieces unit d ns = items.map (realize unit) := by
  induction h generalizing d with
  | nil => exact ⟨[], nofun, fun unit => rfl⟩
  | trivia isTrivia _ ih =>
    obtain ⟨items, hitems, hrealize⟩ := ih d
    exact ⟨items, hitems, fun unit => by rw [declPieces_of_trivia isTrivia, hrealize unit]⟩
  | use_ decl _ ih =>
    obtain ⟨items, hitems, hrealize⟩ := ih d
    obtain ⟨ms, hms, huse⟩ := exists_useMarks decl d
    refine ⟨ms :: items, List.forall_mem_cons.2 ⟨hms, hitems⟩, fun unit => ?_⟩
    rw [declPieces_of_decl rfl, nodePieces, huse unit, hrealize unit, List.map_cons]
  | enum decl _ ih =>
    obtain ⟨items, hitems, hrealize⟩ := ih d
    obtain ⟨ms, hms, henum⟩ := exists_enumMarks decl d
    refine ⟨ms :: items, List.forall_mem_cons.2 ⟨hms, hitems⟩, fun unit => ?_⟩
    rw [declPieces_of_decl rfl, nodePieces, henum unit, hrealize unit, List.map_cons]
  | @fn head body ns span isHead _ _ ihBody ih =>
    obtain ⟨items, hitems, hrealize⟩ := ih d
    obtain ⟨same, hsame, hrealizeSame⟩ := ihBody d
    obtain ⟨further, hfurther, hrealizeFurther⟩ := ihBody (d + 1)
    obtain ⟨hs, hhs, hhead⟩ := exists_headMarks isHead d
    have hlength : ∀ {d : Nat} {xs : List (List Mark)},
        (∀ unit, declPieces unit d body = xs.map (realize unit)) →
          xs.length = (declarations body).length := by
      intro d xs hxs
      rw [← length_declPieces [] d, hxs [], List.length_map]
    obtain ⟨bs, hbs, hbody⟩ := exists_bodyMarks hsame hfurther (hlength hrealizeSame)
      (hlength hrealizeFurther)
    refine ⟨(.piece (keyword .fn) :: (hs ++ bs)) :: items, List.forall_mem_cons.2
      ⟨.intro (firm_keyword _) nofun rfl rfl (hhs.append hbs), hitems⟩, fun unit => ?_⟩
    rw [declPieces_of_decl rfl, nodePieces, hhead unit, hrealizeSame unit, hrealizeFurther unit,
      hbody unit, ← realize_append, hrealize unit]
    rfl

end Layout

end Curly
