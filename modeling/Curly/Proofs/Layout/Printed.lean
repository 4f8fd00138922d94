import Curly.Proofs.Layout.Indent
import Curly.Proofs.Token.Piece
import Curly.Proofs.Tree.Legal
import Curly.Proofs.Tree.Shape

/-!
# Canonical layout in pieces

Canonical layout puts a body together as text, cuts it into lines and indents them. Here the same
text is put together from pieces, with the depth of each line known from the start: a declaration
at depth `d` is `nodePieces unit d`, and one level further in it has the same pieces but for the
blanks of its lines (`map_declPieces`). `Printed` pieces have no empty lines, so that indenting
their text does the same (`spell_deepenPieces`).
-/

namespace Curly.Layout

open Piece

/-! ## The pieces of a declaration -/

section Pieces

variable (unit : List Char) (d : Nat)

/-- The blanks in front of a line at depth `d`. -/
def margin : List Char := (List.replicate d unit).flatten

/-- A line end and the blanks in front of the next line, which is at depth `d`. -/
def lineBreak : List Piece := newline :: (margin unit d).map blank

/-- Entries on lines of their own, one level further in than the lines around them. -/
def entryPieces (entries : List (List Piece)) : List Piece :=
  if entries.isEmpty then []
  else entries.flatMap (fun e => lineBreak unit (d + 1) ++ e) ++ lineBreak unit d

/-- What is listed after an import, with the colon before it. -/
def includesPieces : Option Includes → List Piece
  | none => []
  | some .everything => [colon, lbrace, asterisk, rbrace]
  | some (.names ns) =>
    [colon, lbrace] ++ entryPieces unit d (ns.map fun n => [word n]) ++ [rbrace]

/-- A `use` declaration. -/
def usePieces (decl : UseDecl) : List Piece :=
  [keyword .use_, space, quoted decl.specifier] ++ includesPieces unit d decl.includes

/-- An enumeration. -/
def enumPieces (decl : EnumDecl) : List Piece :=
  [keyword .enum, space, word decl.name, space, lbrace] ++
    entryPieces unit d (decl.values.map fun v => [word v.name]) ++ [rbrace]

/-- A parameter. -/
def paramPieces (p : Param) : List Piece := [word p.name, space, word p.type]

/-- What stands between a function's parameters and its body. -/
def returnsPieces : Option String → List Piece
  | none => []
  | some type => [word type, space]

/-- What stands before a function's body. -/
def headPieces (head : FnHead) : List Piece :=
  [keyword .fn, space, word head.name, lparen] ++
    entryPieces unit d (head.params.map paramPieces) ++ [rparen, space] ++
      returnsPieces head.returns

/-- A body of `count` declarations, which are `same` at the depth of the function and `further`
one level further in. -/
def bodyPieces (count : Nat) (same further : List (List Piece)) : List Piece :=
  match count with
  | 0 => [lbrace, rbrace]
  | 1 => [arrow, space] ++ same.flatten
  | _ => [lbrace] ++ further.flatMap (fun x => lineBreak unit (d + 1) ++ x) ++ lineBreak unit d ++
      [rbrace]

variable {same further : List (List Piece)}

theorem bodyPieces_one (x : List Piece) :
    bodyPieces unit d 1 [x] further = [arrow, space] ++ x := by
  rw [bodyPieces, List.flatten_singleton]

theorem bodyPieces_many (count : Nat) :
    bodyPieces unit d (count + 2) same further =
      [lbrace] ++ further.flatMap (fun x => lineBreak unit (d + 1) ++ x) ++
        (lineBreak unit d ++ [rbrace]) :=
  List.append_assoc _ _ _

end Pieces

mutual

/-- A declaration at depth `d`; nothing for trivia. -/
def nodePieces (unit : List Char) : Nat → Node → List Piece
  | _, .comment .. | _, .newline _ | _, .spacing _ => []
  | d, .use_ decl => usePieces unit d decl
  | d, .enum decl => enumPieces unit d decl
  | d, .fn head body _ =>
    headPieces unit d head ++ bodyPieces unit d (declarations body).length (declPieces unit d body)
      (declPieces unit (d + 1) body)

/-- The declarations of a list of nodes at depth `d`. -/
def declPieces (unit : List Char) : Nat → List Node → List (List Piece)
  | _, [] => []
  | d, n :: ns =>
    if n.isTrivia then declPieces unit d ns else nodePieces unit d n :: declPieces unit d ns

end

variable {unit : List Char} {d : Nat} {n : Node} {ns : List Node}

theorem declPieces_of_trivia (h : n.isTrivia) :
    declPieces unit d (n :: ns) = declPieces unit d ns := by
  rw [declPieces, if_pos h]

theorem declPieces_of_decl (h : n.isTrivia = false) :
    declPieces unit d (n :: ns) = nodePieces unit d n :: declPieces unit d ns := by
  rw [declPieces, if_neg (by rw [h]; exact Bool.false_ne_true)]

theorem length_declPieces (unit : List Char) (d : Nat) (ns : List Node) :
    (declPieces unit d ns).length = (declarations ns).length := by
  induction ns with
  | nil => rfl
  | cons n ns ih =>
    cases h : n.isTrivia
    · rw [declPieces_of_decl h, declarations_of_decl h, List.length_cons, ih, List.length_cons]
    · rw [declPieces_of_trivia h, declarations_of_trivia h, ih]

/-- **What holds of the pieces of every declaration** of a legal tree, at any depth: it has to hold
of imports and of enumerations, and of a function if it does of the declarations in its body. -/
theorem forall_declPieces {P : List Piece → Prop}
    (huse : ∀ {decl : UseDecl}, decl.Legal → ∀ d, P (usePieces unit d decl))
    (henum : ∀ {decl : EnumDecl}, decl.Legal → ∀ d, P (enumPieces unit d decl))
    (hfn : ∀ {head : FnHead} {count : Nat} {same further : List (List Piece)}, head.Legal →
      same.length = count → (∀ x ∈ same, P x) → (∀ x ∈ further, P x) →
      ∀ d, P (headPieces unit d head ++ bodyPieces unit d count same further))
    (h : Legal ns) (d : Nat) : ∀ x ∈ declPieces unit d ns, P x := by
  induction h generalizing d with
  | nil => simp [declPieces]
  | trivia isTrivia _ ih =>
    rw [declPieces_of_trivia isTrivia]
    exact ih d
  | use_ decl _ ih =>
    rw [declPieces_of_decl rfl]
    exact List.forall_mem_cons.2 ⟨huse decl d, ih d⟩
  | enum decl _ ih =>
    rw [declPieces_of_decl rfl]
    exact List.forall_mem_cons.2 ⟨henum decl d, ih d⟩
  | @fn head body ns span isHead _ _ ihBody ih =>
    rw [declPieces_of_decl rfl]
    have hnode : P (nodePieces unit d (.fn head body span)) := by
      rw [nodePieces]
      exact hfn isHead (length_declPieces unit d body) (ihBody d) (ihBody (d + 1)) d
    exact List.forall_mem_cons.2 ⟨hnode, ih d⟩

/-! ## One level further in -/

/-- The pieces with every line but the first one level further in. -/
def deepenPieces (unit : List Char) (xs : List Piece) : List Piece :=
  xs.flatMap fun x => if x.kind = .newline then x :: unit.map blank else [x]

@[simp] theorem deepenPieces_nil : deepenPieces unit [] = [] := rfl

@[simp] theorem deepenPieces_cons {x : Piece} {xs : List Piece} (h : x.kind ≠ .newline) :
    deepenPieces unit (x :: xs) = x :: deepenPieces unit xs := by
  simp [deepenPieces, h]

theorem deepenPieces_newline (xs : List Piece) :
    deepenPieces unit (newline :: xs) = newline :: (unit.map blank ++ deepenPieces unit xs) := by
  simp [deepenPieces, newline]

@[simp] theorem deepenPieces_append {xs ys : List Piece} :
    deepenPieces unit (xs ++ ys) = deepenPieces unit xs ++ deepenPieces unit ys :=
  List.flatMap_append

theorem deepenPieces_blanks (cs : List Char) :
    deepenPieces unit (cs.map blank) = cs.map blank := by
  induction cs with
  | nil => rfl
  | cons c cs ih => rw [List.map_cons, deepenPieces_cons Token.Kind.noConfusion, ih]

@[simp] theorem deepenPieces_lineBreak :
    deepenPieces unit (lineBreak unit d) = lineBreak unit (d + 1) := by
  have hmargin : margin unit (d + 1) = unit ++ margin unit d := by
    rw [margin, margin, List.replicate_succ, List.flatten_cons]
  rw [lineBreak, deepenPieces_newline, deepenPieces_blanks, lineBreak, hmargin, List.map_append]

theorem word_kind_ne (s : String) : (word s).kind ≠ .newline := by
  show Scanner.wordKind s ≠ .newline
  unfold Scanner.wordKind
  split
  · exact Token.Kind.noConfusion
  · split <;> exact Token.Kind.noConfusion

/-- Lines below each other, all of them one level further in. -/
theorem deepenPieces_flatMap (xs : List (List Piece)) :
    deepenPieces unit (xs.flatMap fun x => lineBreak unit d ++ x) =
      (xs.map (deepenPieces unit)).flatMap fun x => lineBreak unit (d + 1) ++ x := by
  induction xs with
  | nil => rfl
  | cons x xs ih =>
    rw [List.flatMap_cons, deepenPieces_append, deepenPieces_append, deepenPieces_lineBreak, ih,
      List.map_cons, List.flatMap_cons]

theorem deepenPieces_flatten (xs : List (List Piece)) :
    deepenPieces unit xs.flatten = (xs.map (deepenPieces unit)).flatten := by
  induction xs with
  | nil => rfl
  | cons x xs ih =>
    rw [List.flatten_cons, deepenPieces_append, ih, List.map_cons, List.flatten_cons]

theorem deepenPieces_entries {entries : List (List Piece)}
    (h : ∀ e ∈ entries, deepenPieces unit e = e) :
    deepenPieces unit (entryPieces unit d entries) = entryPieces unit (d + 1) entries := by
  have hmap : entries.map (deepenPieces unit) = entries :=
    (List.map_congr_left h).trans (List.map_id _)
  rw [entryPieces, entryPieces]
  split
  · rfl
  · rw [deepenPieces_append, deepenPieces_flatMap, deepenPieces_lineBreak, hmap]

theorem deepenPieces_use (decl : UseDecl) :
    deepenPieces unit (usePieces unit d decl) = usePieces unit (d + 1) decl := by
  have hnames : ∀ ns : List String,
      deepenPieces unit (entryPieces unit d (ns.map fun n => [word n])) =
        entryPieces unit (d + 1) (ns.map fun n => [word n]) := by
    intro ns
    refine deepenPieces_entries fun e he => ?_
    obtain ⟨n, -, rfl⟩ := List.mem_map.1 he
    rw [deepenPieces_cons (word_kind_ne n), deepenPieces_nil]
  obtain ⟨specifier, includes, span⟩ := decl
  rcases includes with _ | _ | ns
  · rfl
  · rfl
  · simp only [usePieces, includesPieces, deepenPieces_append, hnames]
    rfl

theorem deepenPieces_enum (decl : EnumDecl) :
    deepenPieces unit (enumPieces unit d decl) = enumPieces unit (d + 1) decl := by
  have hvalues : ∀ e ∈ decl.values.map fun v => [word v.name], deepenPieces unit e = e := by
    intro e he
    obtain ⟨v, -, rfl⟩ := List.mem_map.1 he
    rw [deepenPieces_cons (word_kind_ne v.name), deepenPieces_nil]
  have hopening : deepenPieces unit [keyword .enum, space, word decl.name, space, lbrace] =
      [keyword .enum, space, word decl.name, space, lbrace] := by
    simp [deepenPieces, word_kind_ne, keyword, space, blank, lbrace]
  rw [enumPieces, deepenPieces_append, deepenPieces_append, deepenPieces_entries hvalues, hopening]
  rfl

theorem deepenPieces_head (head : FnHead) :
    deepenPieces unit (headPieces unit d head) = headPieces unit (d + 1) head := by
  have hparams : ∀ e ∈ head.params.map paramPieces, deepenPieces unit e = e := by
    intro e he
    obtain ⟨p, -, rfl⟩ := List.mem_map.1 he
    simp [paramPieces, deepenPieces, word_kind_ne, space, blank]
  have hopening : deepenPieces unit [keyword .fn, space, word head.name, lparen] =
      [keyword .fn, space, word head.name, lparen] := by
    simp [deepenPieces, word_kind_ne, keyword, space, blank, lparen]
  have hreturns : deepenPieces unit (returnsPieces head.returns) = returnsPieces head.returns := by
    cases head.returns <;> simp [returnsPieces, deepenPieces, word_kind_ne, space, blank]
  rw [headPieces, deepenPieces_append, deepenPieces_append, deepenPieces_append,
    deepenPieces_entries hparams, hopening, hreturns]
  rfl

theorem deepenPieces_body (count : Nat) (same further : List (List Piece)) :
    deepenPieces unit (bodyPieces unit d count same further) =
      bodyPieces unit (d + 1) count (same.map (deepenPieces unit))
        (further.map (deepenPieces unit)) := by
  rcases count with _ | _ | count
  · rfl
  · simp only [bodyPieces, deepenPieces_append, deepenPieces_flatten]
    rfl
  · simp only [bodyPieces, deepenPieces_append, deepenPieces_flatMap, deepenPieces_lineBreak]
    rfl

mutual

theorem deepenPieces_node (unit : List Char) :
    ∀ (d : Nat) (n : Node), deepenPieces unit (nodePieces unit d n) = nodePieces unit (d + 1) n
  | _, .comment .. | _, .newline _ | _, .spacing _ => rfl
  | _, .use_ decl => deepenPieces_use decl
  | _, .enum decl => deepenPieces_enum decl
  | d, .fn head body _ => by
    rw [nodePieces, nodePieces, deepenPieces_append, deepenPieces_head, deepenPieces_body,
      map_declPieces unit d body, map_declPieces unit (d + 1) body]

/-- **One level further in, declarations have the same pieces** but for the blanks of their
lines. -/
theorem map_declPieces (unit : List Char) :
    ∀ (d : Nat) (ns : List Node),
      (declPieces unit d ns).map (deepenPieces unit) = declPieces unit (d + 1) ns
  | _, [] => rfl
  | d, n :: ns => by
    cases h : n.isTrivia
    · rw [declPieces_of_decl h, declPieces_of_decl h, List.map_cons, deepenPieces_node unit d n,
        map_declPieces unit d ns]
    · rw [declPieces_of_trivia h, declPieces_of_trivia h, map_declPieces unit d ns]

end

/-! ## Lines -/

/-- A piece that stands inside a line. -/
structure Inline (x : Piece) : Prop where
  kind_ne : x.kind ≠ .newline
  nonempty : x.lexeme ≠ []
  noNewline : '\n' ∉ x.lexeme
  noReturn : '\r' ∉ x.lexeme

theorem inline_iff {x : Piece} :
    Inline x ↔ x.kind ≠ .newline ∧ x.lexeme ≠ [] ∧ '\n' ∉ x.lexeme ∧ '\r' ∉ x.lexeme := by
  constructor
  · rintro ⟨hkind, hne, hn, hr⟩
    exact ⟨hkind, hne, hn, hr⟩
  · rintro ⟨hkind, hne, hn, hr⟩
    exact ⟨hkind, hne, hn, hr⟩

instance (x : Piece) : Decidable (Inline x) := decidable_of_iff' _ inline_iff

theorem inline_blank {c : Char} (h : c = ' ' ∨ c = '\t') : Inline (blank c) := by
  rcases h with rfl | rfl <;> decide

theorem inline_space : Inline space := by decide

theorem inline_lbrace : Inline lbrace := by decide

theorem inline_rbrace : Inline rbrace := by decide

theorem inline_lparen : Inline lparen := by decide

theorem inline_rparen : Inline rparen := by decide

theorem inline_colon : Inline colon := by decide

theorem inline_asterisk : Inline asterisk := by decide

theorem inline_arrow : Inline arrow := by decide

theorem isWordChar_of_mem {cs : List Char} {c : Char} (h : IsWord cs) (hc : c ∈ cs) :
    Scanner.isWordChar c := by
  cases h with
  | intro first more =>
    rcases List.mem_cons.1 hc with rfl | hc
    · exact Scanner.isWordChar_of_isWordStart first
    · exact more c hc

theorem inline_of_isWord {kind : Token.Kind} {cs : List Char} (hkind : kind ≠ .newline)
    (h : IsWord cs) : Inline ⟨kind, cs⟩ := by
  refine ⟨hkind, ?_, fun hmem => ?_, fun hmem => ?_⟩
  · cases h
    exact List.cons_ne_nil _ _
  · exact absurd (isWordChar_of_mem h hmem) (by decide)
  · exact absurd (isWordChar_of_mem h hmem) (by decide)

theorem inline_word {s : String} (h : IsWord s.toList) : Inline (word s) :=
  inline_of_isWord (word_kind_ne s) h

theorem inline_keyword (k : Keyword) : Inline (keyword k) :=
  inline_of_isWord nofun (isWord_spelling k)

theorem inline_quoted {s : String} (h : IsSpecifier s) : Inline (quoted s) := by
  have hmem : ∀ {c : Char}, c ∈ (quoted s).lexeme → c = '\'' ∨ c ∈ s.toList := by
    intro c hc
    rcases List.mem_cons.1 hc with rfl | hc
    · exact .inl rfl
    · rcases List.mem_append.1 hc with hc | hc
      · exact .inr hc
      · exact .inl (List.mem_singleton.1 hc)
  refine ⟨nofun, List.cons_ne_nil _ _, fun hc => ?_, fun hc => ?_⟩
  · exact (hmem hc).elim (by decide) fun hc => (h _ hc).2.2 rfl
  · exact (hmem hc).elim (by decide) fun hc => (h _ hc).2.1 rfl

/-- Pieces that are written one after the other without empty lines, beginning and ending inside a
line. -/
structure Printed (xs : List Piece) : Prop where
  pieces : ∀ x ∈ xs, x = newline ∨ Inline x
  compact : Compact (spell xs)

theorem spell_blanks (cs : List Char) : spell (cs.map blank) = cs := by
  induction cs with
  | nil => rfl
  | cons c cs ih => rw [List.map_cons, spell_cons, ih]; rfl

/-- **Putting pieces one level further in does so with their text.** -/
theorem spell_deepenPieces {xs : List Piece} (h : ∀ x ∈ xs, x = newline ∨ Inline x) :
    spell (deepenPieces unit xs) = deepen unit (spell xs) := by
  induction xs with
  | nil => rfl
  | cons x xs ih =>
    obtain ⟨hx, hxs⟩ := List.forall_mem_cons.1 h
    rcases hx with rfl | hx
    · rw [deepenPieces_newline, spell_cons, spell_append, spell_blanks, ih hxs, spell_cons]
      exact deepen_newline.symm
    · rw [deepenPieces_cons hx.kind_ne, spell_cons, ih hxs, spell_cons, deepen_append,
        deepen_of_not_mem hx.noNewline]

theorem compact_inline {x : Piece} (h : Inline x) : Compact x.lexeme :=
  compact_of_not_mem h.nonempty h.noNewline h.noReturn

theorem Printed.singleton {x : Piece} (h : Inline x) : Printed [x] := by
  refine ⟨by simpa using .inr h, ?_⟩
  rw [spell_cons, spell_nil, List.append_nil]
  exact compact_inline h

theorem Printed.append {xs ys : List Piece} (hxs : Printed xs) (hys : Printed ys) :
    Printed (xs ++ ys) := by
  refine ⟨List.forall_mem_append.2 ⟨hxs.pieces, hys.pieces⟩, ?_⟩
  rw [spell_append]
  exact hxs.compact.append hys.compact

theorem Printed.cons {x : Piece} {xs : List Piece} (hx : Inline x) (hxs : Printed xs) :
    Printed (x :: xs) := (Printed.singleton hx).append hxs

/-- What a level of indentation is written with. -/
def IsUnit (unit : List Char) : Prop := ∀ c ∈ unit, c = ' ' ∨ c = '\t'

theorem isUnit_unit (style : Style) : IsUnit style.unit := by
  intro c hc
  unfold Style.unit at hc
  split at hc
  · exact .inr (List.mem_singleton.1 hc)
  · exact .inl (List.eq_of_mem_replicate hc)

theorem isUnit_margin (hunit : IsUnit unit) (d : Nat) : IsUnit (margin unit d) := by
  intro c hc
  obtain ⟨cs, hcs, hc⟩ := List.mem_flatten.1 hc
  rw [List.eq_of_mem_replicate hcs] at hc
  exact hunit c hc

/-- A line end between. -/
theorem Printed.line {xs ys : List Piece} (hunit : IsUnit unit) (hxs : Printed xs)
    (hys : Printed ys) (d : Nat) : Printed (xs ++ (lineBreak unit d ++ ys)) := by
  have hmargin := isUnit_margin hunit d
  constructor
  · refine List.forall_mem_append.2 ⟨hxs.pieces, List.forall_mem_append.2 ⟨?_, hys.pieces⟩⟩
    refine List.forall_mem_cons.2 ⟨.inl rfl, fun x hx => .inr ?_⟩
    obtain ⟨c, hc, rfl⟩ := List.mem_map.1 hx
    exact inline_blank (hmargin c hc)
  · have hspell : spell (xs ++ (lineBreak unit d ++ ys)) =
        spell xs ++ '\n' :: (margin unit d ++ spell ys) := by
      rw [spell_append, spell_append, lineBreak, spell_cons, spell_blanks]
      rfl
    rw [hspell]
    refine hxs.compact.newline (Compact.indented (fun hmem => ?_) (fun hmem => ?_) hys.compact)
    · exact (hmargin _ hmem).elim (by decide) (by decide)
    · exact (hmargin _ hmem).elim (by decide) (by decide)

/-- Printed pieces below each other. -/
theorem Printed.lines {xs : List Piece} {yss : List (List Piece)} (hunit : IsUnit unit)
    (hxs : Printed xs) (hyss : ∀ ys ∈ yss, Printed ys) (d : Nat) :
    Printed (xs ++ yss.flatMap fun ys => lineBreak unit d ++ ys) := by
  induction yss generalizing xs with
  | nil => simpa using hxs
  | cons ys yss ih =>
    obtain ⟨hys, hyss⟩ := List.forall_mem_cons.1 hyss
    have := ih (hxs.line hunit hys d) hyss
    simpa using this

/-- Entries between an opening and a closing. -/
theorem Printed.entries {xs zs : List Piece} {yss : List (List Piece)} (hunit : IsUnit unit)
    (hxs : Printed xs) (hyss : ∀ ys ∈ yss, Printed ys) (hzs : Printed zs) (d : Nat) :
    Printed (xs ++ entryPieces unit d yss ++ zs) := by
  rw [entryPieces]
  split
  · rw [List.append_nil]
    exact hxs.append hzs
  · rw [← List.append_assoc, List.append_assoc _ (lineBreak unit d)]
    exact (hxs.lines hunit hyss (d + 1)).line hunit hzs d

end Curly.Layout
