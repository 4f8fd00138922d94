import Curly.Proofs.Layout.Spelling

/-!
# Scanning canonical text

None of the pieces of canonical text runs into the next (`closed_of_legal`), so its tokens are the
pieces that it is put together from (`tokens?_text`). Words are followed by a blank, a line end or
a parenthesis, and a colon by a brace.
-/

namespace Curly.Layout

open Piece

variable {unit : List Char} {ns : List Node}

/-- Pieces that are read whatever comes after them. -/
def Closed (xs : List Piece) : Prop := ∀ rest, Stand rest xs

theorem closed_nil : Closed [] := fun _ => trivial

theorem Closed.append {xs ys : List Piece} (hxs : Closed xs) (hys : Closed ys) :
    Closed (xs ++ ys) := fun rest => stand_append.2 ⟨hxs _, hys rest⟩

theorem Closed.cons {x : Piece} {xs : List Piece} (hx : ∀ rest, x.StandsBefore rest)
    (hxs : Closed xs) : Closed (x :: xs) := fun rest => ⟨hx _, hxs rest⟩

theorem Closed.flatMap {β : Type} {xs : List β} {f : β → List Piece}
    (h : ∀ x ∈ xs, Closed (f x)) : Closed (xs.flatMap f) := by
  induction xs with
  | nil => exact closed_nil
  | cons x xs ih =>
    obtain ⟨hx, hxs⟩ := List.forall_mem_cons.1 h
    rw [List.flatMap_cons]
    exact hx.append (ih hxs)

theorem closed_brace : Closed [rbrace] := .cons (fun _ => standsBefore_rbrace) closed_nil

theorem closed_blanks {cs : List Char} (h : IsUnit cs) : Closed (cs.map blank) := by
  induction cs with
  | nil => exact closed_nil
  | cons c cs ih =>
    obtain ⟨hc, hcs⟩ := List.forall_mem_cons.1 h
    exact .cons (fun _ => standsBefore_blank hc) (ih hcs)

/-! ## Lines -/

section Lines

variable (hunit : IsUnit unit)
include hunit

theorem closed_lineBreak (d : Nat) : Closed (lineBreak unit d) :=
  .cons (fun _ => standsBefore_newline) (closed_blanks (isUnit_margin hunit d))

theorem stand_lines {yss : List (List Piece)} (d : Nat)
    (h : ∀ ys ∈ yss, ∀ rest, Stand ('\n' :: rest) ys) (rest : List Char) :
    Stand ('\n' :: rest) (yss.flatMap fun ys => lineBreak unit d ++ ys) := by
  induction yss with
  | nil => trivial
  | cons ys yss ih =>
    obtain ⟨hys, hyss⟩ := List.forall_mem_cons.1 h
    have hnext : ∃ rest', spell (yss.flatMap fun ys => lineBreak unit d ++ ys) ++ '\n' :: rest =
        '\n' :: rest' := by
      cases yss with
      | nil => exact ⟨rest, rfl⟩
      | cons zs yss =>
        rw [List.flatMap_cons, spell_append, spell_append, spell_lineBreak, List.cons_append,
          List.cons_append, List.cons_append]
        exact ⟨_, rfl⟩
    obtain ⟨rest', hrest'⟩ := hnext
    rw [List.flatMap_cons, List.append_assoc, stand_append, stand_append]
    refine ⟨closed_lineBreak hunit d _, ?_, ih hyss⟩
    rw [hrest']
    exact hys rest'

theorem closed_lines {yss : List (List Piece)} (d : Nat) (h : ∀ ys ∈ yss, Closed ys) :
    Closed (yss.flatMap fun ys => lineBreak unit d ++ ys) :=
  .flatMap fun ys hys => (closed_lineBreak hunit d).append (h ys hys)

theorem closed_entries {yss : List (List Piece)} (d : Nat)
    (h : ∀ ys ∈ yss, ∀ rest, Stand ('\n' :: rest) ys) : Closed (entryPieces unit d yss) := by
  intro rest
  rw [entryPieces]
  split
  · trivial
  · rw [stand_append, spell_lineBreak]
    exact ⟨stand_lines hunit (d + 1) h _, closed_lineBreak hunit d rest⟩

end Lines

/-! ## Words -/

/-- A word before a blank, a line end or a parenthesis. -/
theorem stand_word {s : String} {kind : Token.Kind} {c : Char} {rest : List Char}
    (hword : IsWord s.toList) (hkind : WordKind s.toList kind)
    (hc : Scanner.isWordChar c = false) : (word s).StandsBefore (c :: rest) := by
  refine standsBefore_word hword hkind fun d hd => ?_
  obtain rfl : c = d := Option.some.inj hd
  exact hc

theorem stand_keyword {k : Keyword} {rest : List Char} :
    (keyword k).StandsBefore (' ' :: rest) := by
  refine standsBefore_keyword fun d hd => ?_
  obtain rfl : ' ' = d := Option.some.inj hd
  rfl

/-! ## Declarations -/

section Declarations

variable (hunit : IsUnit unit) (d : Nat)
include hunit

theorem closed_words {β : Type} {xs : List β} {f : β → String} (h : ∀ x ∈ xs, IsName (f x)) :
    Closed (entryPieces unit d (xs.map fun x => [word (f x)])) := by
  refine closed_entries hunit d fun e he rest => ?_
  obtain ⟨x, hx, rfl⟩ := List.mem_map.1 he
  obtain ⟨hword, hkind⟩ := h x hx
  exact ⟨stand_word hword hkind rfl, trivial⟩

theorem closed_params {params : List Param}
    (h : ∀ p ∈ params, IsName p.name ∧ IsTypeName p.type) :
    Closed (entryPieces unit d (params.map paramPieces)) := by
  refine closed_entries hunit d fun e he rest => ?_
  obtain ⟨p, hp, rfl⟩ := List.mem_map.1 he
  obtain ⟨⟨hname, hkind⟩, htype⟩ := h p hp
  obtain ⟨kind, htypeKind⟩ := htype.exists_kind
  exact ⟨stand_word hname hkind rfl, standsBefore_space, stand_word htype.1 htypeKind rfl, trivial⟩

theorem closed_use {decl : UseDecl} (h : decl.Legal) : Closed (usePieces unit d decl) := by
  have hopening : Closed [keyword .use_, space, quoted decl.specifier] := fun rest =>
    ⟨stand_keyword, standsBefore_space, standsBefore_quoted h.specifier, trivial⟩
  have hcolon : Closed [colon, lbrace] := fun rest =>
    ⟨standsBefore_colon nofun, standsBefore_lbrace, trivial⟩
  obtain ⟨specifier, _ | _ | ns, span⟩ := decl
  · exact hopening
  · exact hopening.append (hcolon.append (.cons (fun _ => standsBefore_asterisk) closed_brace))
  · obtain - | ⟨-, hns⟩ := h.includes _ rfl
    exact hopening.append ((hcolon.append (closed_words hunit d hns)).append closed_brace)

theorem closed_enum {decl : EnumDecl} (h : decl.Legal) : Closed (enumPieces unit d decl) := by
  have hopening : Closed [keyword .enum, space, word decl.name, space, lbrace] := fun rest =>
    ⟨stand_keyword, standsBefore_space, stand_word h.name.1 h.name.2 rfl, standsBefore_space,
      standsBefore_lbrace, trivial⟩
  exact (hopening.append (closed_words hunit d h.values)).append closed_brace

theorem closed_head {head : FnHead} (h : head.Legal) : Closed (headPieces unit d head) := by
  have hopening : Closed [keyword .fn, space, word head.name, lparen] := fun rest =>
    ⟨stand_keyword, standsBefore_space, stand_word h.name.1 h.name.2 rfl, standsBefore_lparen,
      trivial⟩
  have hclosing : Closed [rparen, space] := fun rest =>
    ⟨standsBefore_rparen, standsBefore_space, trivial⟩
  refine ((hopening.append (closed_params hunit d h.params)).append hclosing).append ?_
  intro rest
  have hreturns := h.returns
  cases hr : head.returns with
  | none => trivial
  | some type =>
    have htype := hreturns type hr
    obtain ⟨kind, hkind⟩ := htype.exists_kind
    exact ⟨stand_word htype.1 hkind rfl, standsBefore_space, trivial⟩

theorem closed_body {count : Nat} {same further : List (List Piece)}
    (hcount : same.length = count) (hsame : ∀ x ∈ same, Closed x)
    (hfurther : ∀ x ∈ further, Closed x) : Closed (bodyPieces unit d count same further) := by
  rcases count with _ | _ | count
  · exact .cons (fun _ => standsBefore_lbrace) closed_brace
  · obtain ⟨x, rfl⟩ := List.length_eq_one_iff.1 hcount
    rw [bodyPieces_one]
    exact .cons (fun _ => standsBefore_arrow) (.cons (fun _ => standsBefore_space)
      (hsame x List.mem_cons_self))
  · rw [bodyPieces_many]
    exact Closed.append (.cons (fun _ => standsBefore_lbrace) (closed_lines hunit (d + 1) hfurther))
      ((closed_lineBreak hunit d).append closed_brace)

end Declarations

/-- **The pieces of a legal tree are read whatever comes after them.** -/
theorem closed_of_legal (hunit : IsUnit unit) (h : Legal ns) (d : Nat) :
    ∀ x ∈ declPieces unit d ns, Closed x := by
  refine forall_declPieces (fun decl d => closed_use hunit d decl)
    (fun decl d => closed_enum hunit d decl) ?_ h d
  intro head count same further isHead hcount hsame hfurther d
  exact (closed_head hunit d isHead).append (closed_body hunit d hcount hsame hfurther)

/-! ## The tokens of canonical text -/

/-- The pieces of a program: those of its declarations, and an empty line after each. -/
def programPieces (unit : List Char) (ns : List Node) : List Piece :=
  (declPieces unit 0 ns).flatMap fun x => x ++ [newline, newline]

theorem spell_programPieces (hunit : IsUnit unit) (h : Legal ns) :
    spell (programPieces unit ns) = nodesText unit ns := by
  rw [← blocks_declPieces hunit h, blocks, programPieces]
  induction declPieces unit 0 ns with
  | nil => rfl
  | cons x xs ih =>
    rw [List.flatMap_cons, List.flatMap_cons, spell_append, spell_append, ih]
    rfl

/-- **The tokens of canonical text are the pieces that it is made of.** -/
theorem tokens?_text {src : Source} (hunit : IsUnit unit) (h : Legal ns)
    (hchars : src.chars = nodesText unit ns) :
    src.tokens? = .ok (place Position.origin (programPieces unit ns) ++
      [Token.endOfInput src.stop]) := by
  refine tokens?_of_stand ?_ (hchars.trans (spell_programPieces hunit h).symm)
  refine Closed.flatMap (fun x hx => ?_) []
  exact (closed_of_legal hunit h 0 x hx).append
    (.cons (fun _ => standsBefore_newline) (.cons (fun _ => standsBefore_newline) closed_nil))

end Curly.Layout
