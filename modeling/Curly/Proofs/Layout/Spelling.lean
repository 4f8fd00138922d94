import Curly.Proofs.Layout.Printed

/-!
# The text of canonical layout

The pieces of a legal tree spell what `Layout.nodesText` writes (`blocks_declPieces`). On the way:
the pieces of a declaration have no empty lines (`printed_of_legal`) and end in a quote or a brace
(`ends_of_legal`), so that a single one may follow an arrow.
-/

namespace Curly.Layout

open Piece

variable {unit : List Char} {d : Nat} {ns : List Node}

/-! ## No empty lines -/

theorem printed_words {β : Type} {xs : List β} {f : β → String} (h : ∀ x ∈ xs, IsName (f x)) :
    ∀ e ∈ xs.map fun x => [word (f x)], Printed e := by
  intro e he
  obtain ⟨x, hx, rfl⟩ := List.mem_map.1 he
  exact .singleton (inline_word (h x hx).1)

theorem printed_params {params : List Param}
    (h : ∀ p ∈ params, IsName p.name ∧ IsTypeName p.type) :
    ∀ e ∈ params.map paramPieces, Printed e := by
  intro e he
  obtain ⟨p, hp, rfl⟩ := List.mem_map.1 he
  obtain ⟨hname, htype⟩ := h p hp
  exact .cons (inline_word hname.1) (.cons inline_space (.singleton (inline_word htype.1)))

section Printed

variable (hunit : IsUnit unit) (d : Nat)
include hunit

theorem printed_use {decl : UseDecl} (h : decl.Legal) : Printed (usePieces unit d decl) := by
  have hopening : Printed [keyword .use_, space, quoted decl.specifier] :=
    .cons (inline_keyword _) (.cons inline_space (.singleton (inline_quoted h.specifier)))
  obtain ⟨specifier, _ | _ | ns, span⟩ := decl
  · exact hopening
  · exact hopening.append (.cons inline_colon (.cons inline_lbrace
      (.cons inline_asterisk (.singleton inline_rbrace))))
  · obtain - | ⟨-, hns⟩ := h.includes _ rfl
    exact hopening.append (.entries hunit (.cons inline_colon (.singleton inline_lbrace))
      (printed_words hns) (.singleton inline_rbrace) d)

theorem printed_enum {decl : EnumDecl} (h : decl.Legal) : Printed (enumPieces unit d decl) :=
  .entries hunit (.cons (inline_keyword _) (.cons inline_space (.cons (inline_word h.name.1)
    (.cons inline_space (.singleton inline_lbrace))))) (printed_words h.values)
    (.singleton inline_rbrace) d

theorem printed_head {head : FnHead} (h : head.Legal) : Printed (headPieces unit d head) := by
  have hupto := Printed.entries hunit (.cons (inline_keyword .fn) (.cons inline_space
    (.cons (inline_word h.name.1) (.singleton inline_lparen)))) (printed_params h.params)
    (.cons inline_rparen (.singleton inline_space)) d
  obtain ⟨name, params, _ | type, arrow⟩ := head
  · rw [headPieces, returnsPieces, List.append_nil]
    exact hupto
  · exact hupto.append (.cons (inline_word (h.returns type rfl).1) (.singleton inline_space))

theorem printed_body {count : Nat} {same further : List (List Piece)}
    (hcount : same.length = count) (hsame : ∀ x ∈ same, Printed x)
    (hfurther : ∀ x ∈ further, Printed x) :
    Printed (bodyPieces unit d count same further) := by
  rcases count with _ | _ | count
  · exact .cons inline_lbrace (.singleton inline_rbrace)
  · obtain ⟨x, rfl⟩ := List.length_eq_one_iff.1 hcount
    rw [bodyPieces_one]
    exact Printed.append (.cons inline_arrow (.singleton inline_space))
      (hsame x List.mem_cons_self)
  · rw [bodyPieces_many]
    exact Printed.line hunit (.lines hunit (.singleton inline_lbrace) hfurther (d + 1))
      (.singleton inline_rbrace) d

end Printed

/-- **The declarations of a legal tree have no empty lines**, and begin and end inside a line. -/
theorem printed_of_legal (hunit : IsUnit unit) (h : Legal ns) (d : Nat) :
    ∀ x ∈ declPieces unit d ns, Printed x := by
  refine forall_declPieces (fun decl d => printed_use hunit d decl)
    (fun decl d => printed_enum hunit d decl) ?_ h d
  intro head count same further isHead hcount hsame hfurther d
  exact (printed_head hunit d isHead).append (printed_body hunit d hcount hsame hfurther)

/-! ## The last character -/

/-- Pieces that end in a quote or a brace. -/
def Ends (xs : List Piece) : Prop :=
  ∃ before c, spell xs = before ++ [c] ∧ Text.isBlank c = false

theorem ends_append (xs : List Piece) {ys : List Piece} (h : Ends ys) : Ends (xs ++ ys) := by
  obtain ⟨before, c, hys, hc⟩ := h
  exact ⟨spell xs ++ before, c, by rw [spell_append, hys, List.append_assoc], hc⟩

theorem ends_rbrace : Ends [rbrace] := ⟨[], '\x7d', rfl, rfl⟩

theorem ends_use (decl : UseDecl) : Ends (usePieces unit d decl) := by
  obtain ⟨specifier, _ | _ | ns, span⟩ := decl
  · exact ⟨"use '".toList ++ specifier.toList, '\'', by simp [usePieces, includesPieces,
      keyword, Keyword.spelling, space, blank, quoted], rfl⟩
  · exact ends_append [keyword .use_, space, quoted specifier, colon, lbrace, asterisk] ends_rbrace
  · exact ends_append _ (ends_append _ ends_rbrace)

theorem ends_body {count : Nat} {same further : List (List Piece)}
    (hcount : same.length = count) (hsame : ∀ x ∈ same, Ends x) :
    Ends (bodyPieces unit d count same further) := by
  rcases count with _ | _ | count
  · exact ends_append [lbrace] ends_rbrace
  · obtain ⟨x, rfl⟩ := List.length_eq_one_iff.1 hcount
    rw [bodyPieces_one]
    exact ends_append _ (hsame x List.mem_cons_self)
  · exact ends_append _ ends_rbrace

theorem ends_of_legal (h : Legal ns) (d : Nat) : ∀ x ∈ declPieces unit d ns, Ends x := by
  refine forall_declPieces (fun _ _ => ends_use _) (fun _ _ => ends_append _ ends_rbrace) ?_ h d
  intro head count same further _ hcount hsame _ d
  exact ends_append _ (ends_body hcount hsame)

/-! ## The same text -/

theorem trimEnd_of_ends {xs : List Piece} (h : Ends xs) :
    Text.trimEnd (spell xs ++ "\n\n".toList) = spell xs := by
  obtain ⟨before, c, hspell, hc⟩ := h
  have hreverse : (before ++ [c] ++ "\n\n".toList).reverse =
      '\n' :: '\n' :: c :: before.reverse := by simp
  rw [hspell, Text.trimEnd, hreverse, List.dropWhile_cons_of_pos rfl,
    List.dropWhile_cons_of_pos rfl, List.dropWhile_cons_of_neg (by simp [hc])]
  simp

theorem margin_zero (unit : List Char) : margin unit 0 = [] := rfl

theorem margin_one (unit : List Char) : margin unit 1 = unit := by
  rw [margin, List.replicate_one, List.flatten_singleton]

theorem spell_lineBreak (unit : List Char) (d : Nat) :
    spell (lineBreak unit d) = '\n' :: margin unit d := by
  rw [lineBreak, spell_cons, spell_blanks]
  rfl

/-- A line end before each text or after each. -/
theorem newline_flatMap {β : Type} (f : β → List Char) (xs : List β) :
    '\n' :: xs.flatMap (fun x => f x ++ ['\n']) = xs.flatMap (fun x => '\n' :: f x) ++ ['\n'] := by
  induction xs with
  | nil => rfl
  | cons x xs ih =>
    rw [List.flatMap_cons, List.flatMap_cons, List.append_assoc, List.append_assoc, ← ih]
    simp

theorem spell_lines (xs : List (List Piece)) :
    spell (xs.flatMap fun x => lineBreak unit (d + 1) ++ x) =
      xs.flatMap fun x => '\n' :: (margin unit (d + 1) ++ spell x) := by
  induction xs with
  | nil => rfl
  | cons x xs ih =>
    rw [List.flatMap_cons, spell_append, spell_append, spell_lineBreak, ih, List.flatMap_cons]
    rfl

theorem spell_entries {entries : List (List Piece)} (h : ∀ e ∈ entries, Printed e) :
    spell (entryPieces unit 0 entries) = entryLines unit (entries.map spell) := by
  have hline : ∀ e ∈ entries, entryLine unit (spell e) = unit ++ spell e ++ ['\n'] := by
    intro e he
    have hne : spell e ≠ [] := by
      intro hnil
      have := (h e he).compact.lines [] (by rw [hnil]; exact List.mem_singleton_self _)
      exact this rfl
    rw [entryLine, if_neg (by simpa using hne)]
  rw [entryPieces, entryLines, List.isEmpty_map]
  split
  · rfl
  · rw [spell_append, spell_lines, spell_lineBreak, margin_zero, Nat.zero_add, margin_one,
      List.flatMap_map, ← newline_flatMap]
    congr 1
    exact (List.flatMap_congr hline).symm

theorem spell_use {decl : UseDecl} (h : decl.Legal) :
    spell (usePieces unit 0 decl) = useText unit decl := by
  have hopening : ∀ specifier, spell [keyword .use_, space, quoted specifier] =
      "use '".toList ++ specifier.toList ++ "'".toList := by
    intro specifier
    simp [keyword, Keyword.spelling, space, blank, quoted]
  obtain ⟨specifier, _ | _ | ns, span⟩ := decl
  · rw [usePieces, spell_append, hopening]
    rfl
  · have hasterisk : spell [colon, lbrace, asterisk, rbrace] = ":\x7b*\x7d".toList := by
      simp [colon, lbrace, asterisk, rbrace]
    rw [usePieces, spell_append, hopening, includesPieces, hasterisk]
    rfl
  · obtain - | ⟨-, hns⟩ := h.includes _ rfl
    have hnames : (ns.map fun n => [word n]).map spell = ns.map String.toList := by
      simp [Function.comp_def]
    have hcolon : spell [colon, lbrace] = ":\x7b".toList := by simp [colon, lbrace]
    have hclosing : spell [rbrace] = "\x7d".toList := by simp [rbrace]
    rw [usePieces, spell_append, hopening, includesPieces, spell_append, spell_append,
      spell_entries (printed_words hns), hnames, hcolon, hclosing]
    rfl

theorem spell_enum {decl : EnumDecl} (h : decl.Legal) :
    spell (enumPieces unit 0 decl) = enumText unit decl := by
  have hvalues : (decl.values.map fun v => [word v.name]).map spell =
      decl.values.map fun v => v.name.toList := by
    simp [Function.comp_def]
  have hopening : spell [keyword .enum, space, word decl.name, space, lbrace] =
      "enum ".toList ++ decl.name.toList ++ " \x7b".toList := by
    simp [keyword, Keyword.spelling, space, blank, lbrace]
  have hclosing : spell [rbrace] = "\x7d".toList := by simp [rbrace]
  rw [enumPieces, spell_append, spell_append, spell_entries (printed_words h.values), hvalues,
    hopening, hclosing]
  rfl

theorem spell_head {head : FnHead} (h : head.Legal) :
    spell (headPieces unit 0 head) = headText unit head := by
  have hparams : (head.params.map paramPieces).map spell = head.params.map paramText := by
    simp [paramPieces, paramText, space, blank, Function.comp_def]
  have hopening : spell [keyword .fn, space, word head.name, lparen] =
      "fn ".toList ++ head.name.toList ++ "(".toList := by
    simp [keyword, Keyword.spelling, space, blank, lparen]
  have hclosing : spell [rparen, space] = ") ".toList := by simp [rparen, space, blank]
  have hreturns : ∀ type, spell [word type, space] = type.toList ++ " ".toList := by
    simp [space, blank]
  rw [headPieces, spell_append, spell_append, spell_append,
    spell_entries (printed_params h.params), hparams, hopening, hclosing]
  obtain ⟨name, params, _ | type, arrow⟩ := head
  · rfl
  · rw [returnsPieces, hreturns]
    rfl

/-- What a list of declarations is written as, each with an empty line after it. -/
def blocks (xs : List (List Piece)) : List Char := xs.flatMap fun x => spell x ++ "\n\n".toList

theorem indent_blocks (unit : List Char) {xs : List (List Piece)} (h : ∀ x ∈ xs, Printed x) :
    '\n' :: indent unit (blocks xs) =
      spell ((xs.map (deepenPieces unit)).flatMap fun x => lineBreak unit 1 ++ x) ++ ['\n'] := by
  have hindent : indent unit (blocks xs) =
      xs.flatMap fun x => unit ++ spell (deepenPieces unit x) ++ ['\n'] := by
    induction xs with
    | nil => exact indent_nil
    | cons x xs ih =>
      obtain ⟨hx, hxs⟩ := List.forall_mem_cons.1 h
      rw [blocks, List.flatMap_cons, ← blocks, indent_append hx.compact, ih hxs,
        List.flatMap_cons, spell_deepenPieces hx.pieces]
  rw [hindent, newline_flatMap, spell_lines, Nat.zero_add, margin_one, List.flatMap_map]

theorem spell_body {count : Nat} {same : List (List Piece)} (hcount : same.length = count)
    (hprinted : ∀ x ∈ same, Printed x) (hends : ∀ x ∈ same, Ends x) :
    spell (bodyPieces unit 0 count same (same.map (deepenPieces unit))) =
      bodyText unit count (blocks same) := by
  rcases count with _ | _ | count
  · rfl
  · obtain ⟨x, rfl⟩ := List.length_eq_one_iff.1 hcount
    have hblocks : blocks [x] = spell x ++ "\n\n".toList := by simp [blocks]
    rw [bodyPieces_one, hblocks, bodyText, trimEnd_of_ends (hends x List.mem_cons_self)]
    simp [arrow, space, blank]
  · have hindent := indent_blocks unit hprinted
    have htext : bodyText unit (count + 2) (blocks same) =
        '\x7b' :: ('\n' :: indent unit (blocks same)) ++ ['\x7d'] := by
      simp [bodyText]
    rw [bodyPieces_many, htext, hindent, spell_append, spell_append, spell_append, spell_lineBreak]
    simp [lbrace, rbrace, margin_zero]

/-- **The pieces of a legal tree spell its canonical text.** -/
theorem blocks_declPieces (hunit : IsUnit unit) (h : Legal ns) :
    blocks (declPieces unit 0 ns) = nodesText unit ns := by
  induction h with
  | nil => rfl
  | trivia isTrivia _ ih =>
    rw [declPieces_of_trivia isTrivia, ih, nodesText, if_pos isTrivia]
  | use_ decl _ ih =>
    rw [declPieces_of_decl rfl, blocks, List.flatMap_cons, ← blocks, ih, nodePieces,
      spell_use decl]
    rfl
  | enum decl _ ih =>
    rw [declPieces_of_decl rfl, blocks, List.flatMap_cons, ← blocks, ih, nodePieces,
      spell_enum decl]
    rfl
  | @fn head body ns span isHead isBody _ ihBody ih =>
    rw [declPieces_of_decl rfl, blocks, List.flatMap_cons, ← blocks, ih, nodePieces,
      ← map_declPieces, spell_append, spell_head isHead, spell_body (length_declPieces _ _ _)
        (printed_of_legal hunit isBody 0) (ends_of_legal isBody 0), ihBody]
    rfl

end Curly.Layout
