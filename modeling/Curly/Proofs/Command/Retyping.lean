import Curly.Proofs.Command.Batch
import Curly.Proofs.Layout.Lines
import Curly.Proofs.Session.Partition

/-!
# Canonical text typed back in

Each declaration of canonical text is one block of a session (`isBlock_declLines`): inside it
every line end comes with a brace open, and its last line closes the block. So a session that reads
canonical text line by line prints it again (`echoes_text_iff`). The exception is a function with
parameters that is inside no other one, as its first line ends with nothing but a parenthesis open.
-/

namespace Curly

open Piece Grammar

/-- Whether the node is a function with parameters. -/
def Node.hasParams : Node → Bool
  | .fn head .. => !head.params.isEmpty
  | _ => false

variable {unit : List Char} {n : Node} {ns : List Node} {a b : List Token} {p : Position}

/-! ## Single declarations -/

theorem Legal.of_mem (h : Legal ns) (hn : n ∈ ns) : Legal [n] := by
  induction h with
  | nil => cases hn
  | trivia isTrivia _ ih =>
    rcases List.mem_cons.1 hn with rfl | hn
    · exact .trivia isTrivia .nil
    · exact ih hn
  | use_ decl _ ih =>
    rcases List.mem_cons.1 hn with rfl | hn
    · exact .use_ decl .nil
    · exact ih hn
  | enum decl _ ih =>
    rcases List.mem_cons.1 hn with rfl | hn
    · exact .enum decl .nil
    · exact ih hn
  | fn isHead isBody _ _ ih =>
    rcases List.mem_cons.1 hn with rfl | hn
    · exact .fn isHead isBody .nil
    · exact ih hn

theorem HasSingleBody.of_mem (h : HasSingleBody [n]) (hn : n ∈ ns) : HasSingleBody ns := by
  induction ns with
  | nil => cases hn
  | cons m ns ih =>
    rcases List.mem_cons.1 hn with rfl | hn
    · cases h with
      | here single => exact .here single
      | inside inBody => exact .inside inBody
      | later inRest => cases inRest
    · exact .later (ih hn)

namespace Layout

theorem oneLine_place {xs : List Piece} (h : ∀ x ∈ xs, x.kind ≠ .newline) (p : Position) :
    OneLine (place p xs) := by
  intro t ht
  obtain ⟨x, hx, q, rfl⟩ := exists_of_mem_place ht
  exact h x hx

/-- Without parameters a function's head is on one line. -/
theorem oneLine_head (unit : List Char) {head : FnHead} (h : head.params = []) (d : Nat)
    (p : Position) : OneLine (place p (headPieces unit d head)) := by
  have hopening : ∀ x ∈ [keyword .fn, space, word head.name, lparen], x.kind ≠ .newline := by
    simp [keyword, space, blank, word_kind_ne, lparen]
  have hclosing : ∀ x ∈ [rparen, space], x.kind ≠ .newline := by simp [rparen, space, blank]
  have hreturns : ∀ x ∈ returnsPieces head.returns, x.kind ≠ .newline := by
    cases head.returns <;> simp [returnsPieces, word_kind_ne, space, blank]
  have hnone : entryPieces unit d (head.params.map paramPieces) = [] := by
    rw [h]
    rfl
  refine oneLine_place ?_ p
  rw [headPieces, hnone, List.append_nil]
  exact List.forall_mem_append.2 ⟨List.forall_mem_append.2 ⟨hopening, hclosing⟩, hreturns⟩

/-- **Where a line ends inside a declaration, a brace is open**, unless it is a function with
parameters. -/
theorem braces_pos_of_decl (h : Legal [n]) (hdecl : n.isTrivia = false)
    (hsingle : ¬ HasSingleBody [n]) (hparams : n.hasParams = false)
    (hab : a ++ b = place p (nodePieces unit 0 n)) (ha : EndsLine a) (hne : a ≠ [])
    (hb : b ≠ []) : 0 < Token.excess .lbrace .rbrace a := by
  cases h with
  | trivia isTrivia =>
    rw [hdecl] at isTrivia
    cases isTrivia
  | use_ decl =>
    obtain ⟨span, huse⟩ := exists_use unit decl 0 p
    rw [nodePieces] at hab
    rw [← hab] at huse
    exact (huse.braces_pos ha hb).resolve_left hne
  | enum decl =>
    obtain ⟨values, span, henum, -⟩ := exists_enum unit decl 0 p
    rw [nodePieces] at hab
    rw [← hab] at henum
    exact (henum.braces_pos ha hb).resolve_left hne
  | @fn head body _ span isHead isBody =>
    obtain ⟨xs, hxs, hbody⟩ := exists_fnPieces unit isBody hsingle 0
    have hnone : head.params = [] := by simpa [Node.hasParams] using hparams
    have hhead := oneLine_head unit hnone 0 p
    have hbalanced : Balanced (place p (headPieces unit 0 head)) :=
      (head_pieces isHead 0 p).balanced
    rw [hxs, place_append, place_cons, place_append] at hab
    obtain ⟨a', b', rfl, hinside, hends⟩ :=
      (exists_inside hab ha hb hhead rfl).resolve_left hne
    obtain ⟨ms, hitems, -⟩ := hbody ((p.after (spell (headPieces unit 0 head))).after lbrace.lexeme)
    rw [hinside] at hitems
    have hnonneg := (hitems.lineCut hends).braces_nonneg
    have hopening : ∀ q, (lbrace.token q).kind = .lbrace := fun q => rfl
    rw [excess_append, excess_cons, hbalanced.braces, hopening, if_pos rfl, if_neg nofun]
    omega

/-! ## The text of a declaration -/

/-- A declaration that is read again from its canonical text. -/
structure Rereadable (n : Node) : Prop where
  legal : Legal [n]
  isDecl : n.isTrivia = false
  braces : ¬ HasSingleBody [n]

theorem declarations_singleton (h : n.isTrivia = false) : declarations [n] = [n] :=
  declarations_of_decl h []

namespace Rereadable

variable (h : Rereadable n)
include h

theorem nodeText_eq (hunit : IsUnit unit) : nodeText unit n = spell (nodePieces unit 0 n) := by
  have hmap := map_nodeText hunit h.legal
  rw [declarations_singleton h.isDecl, declPieces_of_decl h.isDecl] at hmap
  exact List.singleton_inj.1 hmap

theorem nodesText_eq : nodesText unit [n] = nodeText unit n ++ "\n\n".toList := by
  rw [nodesText_of_decl h.isDecl]
  simp [nodesText]

theorem not_mem_return (hunit : IsUnit unit) : '\r' ∉ nodeText unit n := by
  rw [h.nodeText_eq hunit]
  refine (printed_of_legal hunit h.legal 0 _ ?_).compact.noReturn
  rw [declPieces_of_decl h.isDecl]
  exact List.mem_cons_self

/-- The tokens of the text of a declaration and a line end. -/
theorem tokenizes (hunit : IsUnit unit) :
    Tokenizes .origin (nodeText unit n ++ ['\n'])
      (.ok (place .origin (nodePieces unit 0 n ++ [newline]))) := by
  have hclosed : Closed (nodePieces unit 0 n) := by
    refine closed_of_legal hunit h.legal 0 _ ?_
    rw [declPieces_of_decl h.isDecl]
    exact List.mem_cons_self
  have hall : Closed (nodePieces unit 0 n ++ [newline]) :=
    hclosed.append (.cons (fun _ => standsBefore_newline) closed_nil)
  have hcut := tokenizes_of_stand (hall []) .origin
  rwa [spell_append, ← h.nodeText_eq hunit] at hcut

theorem exists_items (unit : List Char) :
    ∃ ms, Items (place .origin (nodePieces unit 0 n ++ [newline])) ms ∧ SameShape ms [n] := by
  have hafter : Blanks [newline] := by simp [Blanks, newline]
  exact rereads_decl h.legal h.isDecl h.braces blanks_nil hafter 0 .origin

/-- A declaration with a line end after it formats to itself with an empty line after it. -/
theorem format_eq (style : Style) :
    (Source.interactive (String.ofList (nodeText style.unit n ++ ['\n']))).format style =
      .ok (String.ofList (nodeText style.unit n ++ "\n\n".toList)) := by
  obtain ⟨ms, hitems, hshape⟩ := h.exists_items style.unit
  have hcut := h.tokenizes (isUnit_unit style)
  rw [← String.toList_ofList (l := nodeText style.unit n ++ ['\n'])] at hcut
  have hformat : (Source.interactive (String.ofList (nodeText style.unit n ++ ['\n']))).format
      style = _ := Source.format_of_items hitems hcut
  rw [hformat, nodesText_eq_of_sameShape hshape, h.nodesText_eq]

/-- No line of a declaration is blank. -/
theorem not_blank (hunit : IsUnit unit) :
    ∀ line ∈ Text.segments (nodeText unit n), ¬ Text.allBlank line := by
  obtain ⟨items, hitems, hrealize⟩ := exists_marks h.legal 0
  have hcut := (laidOut_of_items hunit h.legal hitems (hrealize unit)).cut
  rw [declarations_singleton h.isDecl, List.map_singleton] at hcut
  intro line hline hblank
  have hmem : Text.segments (nodeText unit n) ∈ (items.map markLines).map
      fun block => block.map (Line.chars unit) := hcut ▸ List.mem_singleton_self _
  obtain ⟨block, hblock, hlines⟩ := List.mem_map.1 hmem
  obtain ⟨ms, hms, rfl⟩ := List.mem_map.1 hblock
  rw [← hlines] at hline
  obtain ⟨l, hl, rfl⟩ := List.mem_map.1 hline
  obtain ⟨c, hc, hnot⟩ := ((hitems ms hms).trimmed l hl).head
  have hinside : c ∈ l.chars unit :=
    List.mem_append_right _ (List.mem_of_mem_head? hc)
  rw [List.all_eq_true.1 hblank c hinside] at hnot
  cases hnot

end Rereadable

end Layout

/-! ## Declarations as blocks -/

namespace Session

open Layout

/-- The lines of a declaration. -/
def declLines (unit : List Char) (n : Node) : List String :=
  (Text.segments (nodeText unit n)).map String.ofList

variable {front more rest : List String} {style : Style}

theorem unlines_declLines (unit : List Char) (n : Node) :
    unlines (declLines unit n) = String.ofList (nodeText unit n ++ ['\n']) := by
  rw [declLines, unlines_map_ofList, Text.flatMap_segments]

section Rereadable

variable (h : Rereadable n) (hunit : IsUnit unit)
include h hunit

theorem not_isBlankLine_of_mem : ∀ line ∈ declLines unit n, ¬ IsBlankLine line := by
  intro line hline
  obtain ⟨cs, hcs, rfl⟩ := List.mem_map.1 hline
  rw [IsBlankLine, String.toList_ofList]
  exact h.not_blank hunit cs hcs

/-- From any of its lines on, a declaration has more than a line end. -/
theorem exists_tokens_of_lines {vs : List Token} (hmem : ∀ line ∈ more, line ∈ declLines unit n)
    (hmore : more ≠ []) (hvs : Tokenizes p (unlines more).toList (.ok vs)) :
    ∃ later t, vs = later ++ [t] ∧ (t.kind = .newline → later ≠ []) := by
  rcases List.eq_nil_or_concat vs with rfl | ⟨later, t, rfl⟩
  · have hnil := hvs.text_eq_nil
    rw [String.toList_eq_nil_iff, unlines_eq_empty] at hnil
    exact absurd hnil hmore
  refine ⟨later, t, List.concat_eq_append, fun ht => ?_⟩
  rintro rfl
  obtain ⟨line, more, rfl⟩ := List.exists_cons_of_ne_nil hmore
  have hblank : Text.allBlank (unlines (line :: more)).toList := by
    cases hvs.reads_of_singleton with
    | @token _ kind isLongest =>
      obtain rfl : kind = .newline := ht
      rcases isLongest.isLexeme.of_newline with htext | htext <;> rw [htext] <;> rfl
  exact not_isBlankLine_of_mem h hunit line (hmem line List.mem_cons_self)
    (allBlank_unlines.1 hblank line List.mem_cons_self)

/-- The beginning of a declaration up to a line end is not complete. -/
theorem not_isComplete_of_append (hparams : n.hasParams = false)
    (hlines : declLines unit n = front ++ more) (hfront : front ≠ []) (hmore : more ≠ []) :
    ¬ isComplete (unlines front) := by
  have hcut := h.tokenizes hunit
  have htext : nodeText unit n ++ ['\n'] = (unlines front).toList ++ (unlines more).toList := by
    rw [← String.toList_append, ← unlines_append, ← hlines, unlines_declLines, String.toList_ofList]
  obtain ⟨ms, hitems, -⟩ := h.exists_items unit
  have hends : ∀ c ∈ (unlines front).toList.getLast?, c = '\n' := by
    obtain ⟨upper, line, rfl⟩ := (List.eq_nil_or_concat front).resolve_left hfront
    simp [List.concat_eq_append, unlines_concat]
  rw [htext] at hcut
  obtain ⟨us, vs, hsplit, hus, hvs, hline⟩ := hcut.exists_lineCut hends hitems.ne_template
  have hne : us ≠ [] := by
    rintro rfl
    have hnil := hus.text_eq_nil
    rw [String.toList_eq_nil_iff, unlines_eq_empty] at hnil
    exact hfront hnil
  have hmem : ∀ line ∈ more, line ∈ declLines unit n := fun line hline =>
    hlines ▸ List.mem_append_right front hline
  obtain ⟨later, t, rfl, hlater⟩ := exists_tokens_of_lines h hunit hmem hmore hvs
  rw [place_append, ← List.append_assoc] at hsplit
  obtain ⟨hab, ht⟩ := List.append_inj' hsplit rfl
  have hnewline : t.kind = .newline := by
    rw [← List.singleton_inj.1 ht]
    rfl
  have hpos := braces_pos_of_decl h.legal h.isDecl h.braces hparams hab.symm hline hne
    (hlater hnewline)
  rw [isComplete_iff_of_tokenizes hus]
  omega

theorem isProgram_declLines : (Source.interactive (unlines (declLines unit n))).IsProgram := by
  obtain ⟨ms, hitems, -⟩ := h.exists_items unit
  have hcut := h.tokenizes hunit
  rw [← String.toList_ofList (l := nodeText unit n ++ ['\n']), ← unlines_declLines] at hcut
  exact (isProgram_iff_of_tokenizes hcut).2 ⟨ms, hitems⟩

/-- The first line of a declaration has something in it and ends no session. -/
theorem exists_firstLine : ∃ first later, declLines unit n = first :: later ∧
    ¬ IsBlankLine first ∧ ¬ IsQuit first := by
  obtain ⟨first, later, hlines⟩ : ∃ first later, declLines unit n = first :: later := by
    refine List.exists_cons_of_ne_nil ?_
    rw [declLines, ne_eq, List.map_eq_nil_iff]
    exact Text.pieces_ne_nil _ _
  refine ⟨first, later, hlines, not_isBlankLine_of_mem h hunit first (by simp [hlines]), ?_⟩
  intro hquit
  have hprogram := isProgram_declLines h hunit
  rw [hlines, unlines_cons, String.append_assoc] at hprogram
  exact not_isProgram_of_quit hquit _ hprogram

/-- **A declaration is one block**, unless it is a function with parameters. -/
theorem isBlock_declLines (hparams : n.hasParams = false) : IsBlock (declLines unit n) where
  starts := by
    obtain ⟨first, later, hlines, hstarts⟩ := exists_firstLine h hunit
    exact ⟨first, by rw [hlines]; rfl, hstarts⟩
  not_blank := fun line hline =>
    not_isBlankLine_of_mem h hunit line (List.dropLast_subset _ hline)
  incomplete := by
    rintro front ⟨more, hmore⟩ hne hproper
    refine not_isComplete_of_append h hunit hparams hmore.symm hne ?_
    rintro rfl
    exact hproper ((List.append_nil front).symm.trans hmore)
  ends := .inl (isComplete_of_isProgram (isProgram_declLines h hunit))

/-- The lines of a text of declarations are those of each declaration and an empty one after
them. -/
theorem lines_nodeText (rest : List Char) :
    (Text.lines (nodeText unit n ++ "\n\n".toList ++ rest)).map String.ofList =
      declLines unit n ++ "" :: (Text.lines rest).map String.ofList := by
  have hsplit : nodeText unit n ++ "\n\n".toList ++ rest =
      nodeText unit n ++ '\n' :: ([] ++ '\n' :: rest) := by simp
  rw [hsplit, Text.lines_append (h.not_mem_return hunit), Text.lines_append List.not_mem_nil,
    List.map_append]
  rfl

end Rereadable

theorem answer_declLines (h : Rereadable n) (style : Style) :
    answer style (unlines (declLines style.unit n)) =
      .formatted (String.ofList (nodeText style.unit n ++ "\n\n".toList)) := by
  rw [unlines_declLines, answer, h.format_eq]

/-- The pieces up to the parameters of a function. -/
def openingPieces (head : FnHead) : List Piece := [keyword .fn, space, word head.name, lparen]

/-- The first line of a function with parameters. -/
theorem exists_declLines_eq (h : Rereadable n) (hparams : n.hasParams) (hunit : IsUnit unit) :
    ∃ head : FnHead, head.Legal ∧ ∃ later,
      declLines unit n = String.ofList (spell (openingPieces head)) :: later := by
  cases n with
  | comment | newline | spacing | use_ | enum => cases hparams
  | fn head body span =>
    cases h.legal with
    | trivia isTrivia => cases isTrivia
    | fn isHead =>
      refine ⟨head, isHead, ?_⟩
      have hname : '\n' ∉ head.name.toList := (inline_word isHead.name.1).noNewline
      have hnewline : '\n' ∉ spell (openingPieces head) := by
        simp [openingPieces, (inline_keyword .fn).noNewline, inline_space.noNewline, hname,
          inline_lparen.noNewline]
      obtain ⟨more, hmore⟩ : ∃ more, nodeText unit (.fn head body span) =
          spell (openingPieces head) ++ '\n' :: more := by
        obtain ⟨param, params, hcons⟩ : ∃ param params, head.params = param :: params :=
          List.exists_cons_of_ne_nil (by simpa [Node.hasParams] using hparams)
        obtain ⟨xs, hxs⟩ : ∃ xs, nodePieces unit 0 (.fn head body span) =
            openingPieces head ++ newline :: xs := by
          rw [nodePieces, headPieces, hcons]
          exact ⟨_, rfl⟩
        rw [h.nodeText_eq hunit, hxs, spell_append]
        exact ⟨spell xs, rfl⟩
      refine ⟨(Text.segments more).map String.ofList, ?_⟩
      rw [declLines, hmore, Text.segments, Text.pieces_append, Text.pieces_of_not_mem hnewline]
      rfl

/-- **The first line of a function with parameters** is complete, and no program. -/
theorem rejected_opening {head : FnHead} (h : head.Legal) (line : String)
    (hline : line.toList = spell (openingPieces head)) (style : Style) :
    isComplete (line ++ "\n") ∧ ∀ text, answer style (line ++ "\n") ≠ .formatted text := by
  have hstand : Stand [] (openingPieces head ++ [newline]) :=
    ⟨stand_keyword, standsBefore_space, stand_word h.name.1 h.name.2 rfl, standsBefore_lparen,
      standsBefore_newline, trivial⟩
  have hcut := tokenizes_of_stand hstand .origin
  have htext : (line ++ "\n").toList = spell (openingPieces head ++ [newline]) := by
    rw [String.toList_append, hline, spell_append]
    rfl
  rw [← htext] at hcut
  have hbraces :
      Token.excess .lbrace .rbrace (place .origin (openingPieces head ++ [newline])) = 0 := by
    simp [openingPieces, keyword, space, blank, lparen, newline, word_kind h.name.2]
  have hparens :
      Token.excess .lparen .rparen (place .origin (openingPieces head ++ [newline])) = 1 := by
    simp [openingPieces, keyword, space, blank, lparen, newline, word_kind h.name.2]
  refine ⟨(isComplete_iff_of_tokenizes hcut).2 hbraces.le, fun text hanswer => ?_⟩
  obtain ⟨p, hp, -⟩ := Source.exists_parse_of_format (format_of_answer hanswer)
  obtain ⟨ms, hitems⟩ := (isProgram_iff_of_tokenizes hcut).1 ⟨p, hp⟩
  rw [hitems.balanced.parens] at hparens
  cases hparens

/-- A function with parameters has a block that is rejected. -/
theorem exists_rejected (h : Rereadable n) (hparams : n.hasParams) (style : Style)
    (rest : List String) :
    ∃ block ∈ blocks (read "" (declLines style.unit n ++ rest)).1,
      ∀ text, answer style block ≠ .formatted text := by
  obtain ⟨head, hhead, later, hlines⟩ := exists_declLines_eq h hparams (isUnit_unit style)
  obtain ⟨first, later', hlines', hblank, hquit⟩ := exists_firstLine h (isUnit_unit style)
  obtain ⟨rfl, rfl⟩ := List.cons.inj (hlines.symm.trans hlines')
  obtain ⟨hcomplete, hrejected⟩ := rejected_opening hhead _ String.toList_ofList style
  have heffect : effect "" (String.ofList (spell (openingPieces head))) =
      .submit (String.ofList (spell (openingPieces head)) ++ "\n") := by
    rw [effect_of_not_blank hquit (Bool.eq_false_iff.2 hblank), String.empty_append,
      if_pos hcomplete]
  refine ⟨_, ?_, hrejected⟩
  rw [hlines, List.cons_append, read_cons (by rw [heffect]; exact nofun), heffect]
  exact List.mem_cons_self

/-- An empty line between blocks is skipped. -/
theorem read_empty (rest : List String) :
    read "" ("" :: rest) = (("", .skip) :: (read "" rest).1, (read "" rest).2) := by
  have hskip : effect "" "" = .skip := by decide
  rw [read_cons (by rw [hskip]; exact nofun), hskip]
  rfl

/-! ## Texts of declarations -/

/-- A block that is answered with a text, in front of other lines. -/
theorem Repeats.block {upper text : String} (h : Repeats style (read "" rest) text)
    (isBlock : IsBlock more) (hanswer : answer style (unlines more) = .formatted upper) :
    Repeats style (read "" (more ++ rest)) (upper ++ text) := by
  obtain ⟨effects, hread, hblocks, hgoesOn⟩ := isBlock.exists_read rest
  obtain ⟨texts, htexts, rfl⟩ := h.joins
  rw [hread]
  refine ⟨List.forall_mem_append.2 ⟨hgoesOn, h.goesOn⟩, h.nothingLeft, upper :: texts, ?_, by simp⟩
  have hall : blocks (effects ++ (read "" rest).1) = unlines more :: blocks (read "" rest).1 := by
    rw [blocks, List.filterMap_append, ← blocks, hblocks]
    rfl
  rw [hall, List.map_cons, hanswer, htexts, List.map_cons]

/-- The lines of declarations, with an empty line after each of these. -/
def retyped (unit : List Char) (ns : List Node) : List String :=
  ns.flatMap fun n => declLines unit n ++ [""]

theorem retyped_cons : retyped unit (n :: ns) = declLines unit n ++ "" :: retyped unit ns := by
  simp [retyped]

theorem map_lines_eq_retyped (h : ∀ n ∈ ns, Rereadable n) (hunit : IsUnit unit) :
    (Text.lines (ns.flatMap fun n => nodeText unit n ++ "\n\n".toList)).map String.ofList =
      retyped unit ns := by
  induction ns with
  | nil => rfl
  | cons n ns ih =>
    obtain ⟨hn, hns⟩ := List.forall_mem_cons.1 h
    rw [List.flatMap_cons, lines_nodeText hn hunit, ih hns, retyped_cons]

/-- **Declarations that have no parameters are printed as they are typed in.** -/
theorem repeats_retyped (h : ∀ n ∈ ns, Rereadable n) (hparams : ∀ n ∈ ns, n.hasParams = false)
    (style : Style) : Repeats style (read "" (retyped style.unit ns))
      (String.ofList (ns.flatMap fun n => nodeText style.unit n ++ "\n\n".toList)) := by
  induction ns with
  | nil => exact .nil style
  | cons n ns ih =>
    obtain ⟨hn, hns⟩ := List.forall_mem_cons.1 h
    obtain ⟨hnone, hlater⟩ := List.forall_mem_cons.1 hparams
    have hskip : Repeats style (("", Effect.skip) :: _, _) _ := (ih hns hlater).cons nofun rfl
    rw [← read_empty] at hskip
    rw [retyped_cons, List.flatMap_cons, String.ofList_append]
    exact hskip.block (isBlock_declLines hn (isUnit_unit style) hnone) (answer_declLines hn style)

/-- A function with parameters among declarations has a block that is rejected. -/
theorem exists_rejected_retyped (h : ∀ n ∈ ns, Rereadable n) (hn : n ∈ ns) (hparams : n.hasParams)
    (style : Style) : ∃ block ∈ blocks (read "" (retyped style.unit ns)).1,
      ∀ text, answer style block ≠ .formatted text := by
  induction ns with
  | nil => cases hn
  | cons m ns ih =>
    obtain ⟨hm, hns⟩ := List.forall_mem_cons.1 h
    rw [retyped_cons]
    cases hfirst : m.hasParams with
    | true => exact exists_rejected hm hfirst style _
    | false =>
      rcases List.mem_cons.1 hn with rfl | hn
      · rw [hfirst] at hparams
        cases hparams
      · obtain ⟨block, hblock, hrejected⟩ := ih hns hn
        refine ⟨block, ?_, hrejected⟩
        have hcut := isBlock_declLines hm (isUnit_unit style) hfirst
        obtain ⟨effects, hread, -⟩ := hcut.exists_read ("" :: retyped style.unit ns)
        rw [hread, read_empty, blocks, List.filterMap_append]
        exact List.mem_append_right _ hblock

/-! ## Canonical text -/

variable {src : Source} {text name : String} {p : Program}

/-- Canonical text that is a program is that of its own declarations. -/
theorem eq_flatMap_of_parse (h : src.format style = .ok text)
    (hparse : (Source.mk name text).parse = .ok p) :
    text.toList = (declarations p.children).flatMap
        (fun n => nodeText style.unit n ++ "\n\n".toList) ∧
      ∀ n ∈ declarations p.children, Rereadable n := by
  obtain ⟨q, hq, rfl⟩ := Source.exists_parse_of_format h
  have hchars : (Source.mk name (String.ofList (nodesText style.unit q.children))).chars =
      nodesText style.unit q.children := String.toList_ofList
  have hsingle : ∀ {ns}, Legal ns → nodesText style.unit ns = nodesText style.unit q.children →
      ¬ HasSingleBody ns := by
    intro ns hns heq hsingle
    obtain ⟨_, _, _, -, -, -, herror⟩ :=
      Source.parse_eq_error_of_chars hns hsingle (hchars.trans heq.symm)
    rw [hparse] at herror
    cases herror
  have hlegal := Source.legal_of_parse hq
  obtain ⟨p', hp', hshape⟩ := Source.exists_parse_of_chars hlegal (hsingle hlegal rfl) hchars
  obtain rfl := Except.ok.inj (hparse.symm.trans hp')
  have hsame : nodesText style.unit p.children = nodesText style.unit q.children :=
    nodesText_eq_of_sameShape hshape
  have hlegal' := Source.legal_of_parse hparse
  refine ⟨?_, fun n hn => ?_⟩
  · rw [String.toList_ofList, ← hsame, nodesText_eq_flatMap]
  · obtain ⟨hmem, hdecl⟩ := List.mem_filter.1 hn
    exact ⟨hlegal'.of_mem hmem, by simpa using hdecl,
      fun hbody => hsingle hlegal' hsame (hbody.of_mem hmem)⟩

section Piped

variable {σ : Type} {host : Host (StateM σ)} {streams : σ → Streams}
  {linesOf : String → List String} {s : σ}

/-- **Canonical text can be typed back in.** A session that is given canonical text without
backspaces, and that text is a program, prints it as it stands and reports nothing, just where no
function that is inside no other has parameters. -/
theorem echoes_text_iff (hhost : host.Piped streams linesOf) (hinput : (streams s).input = text)
    (h : src.format style = .ok text) (hparse : (Source.mk name text).parse = .ok p)
    (hbackspace : Text.backspace ∉ text.toList) :
    Quiet style (linesOf text) ∧ Echoes host streams style (linesOf text) s text ↔
      ∀ n ∈ p.children, n.hasParams = false := by
  obtain ⟨htext, hdecls⟩ := eq_flatMap_of_parse h hparse
  have hlines : linesOf text = retyped style.unit (declarations p.children) := by
    rw [hhost.plain text hbackspace, htext, map_lines_eq_retyped hdecls (isUnit_unit style)]
  constructor
  · rintro ⟨hquiet, -⟩ n hn
    by_contra hparams
    rw [Bool.not_eq_false] at hparams
    have hdecl : n ∈ declarations p.children := by
      refine List.mem_filter.2 ⟨hn, ?_⟩
      cases n <;> first | rfl | cases hparams
    obtain ⟨block, hblock, hrejected⟩ := exists_rejected_retyped hdecls hdecl hparams style
    rw [quiet_iff, hlines] at hquiet
    obtain ⟨text', hanswer⟩ := hquiet block hblock
    exact hrejected text' hanswer
  · intro hparams
    have hrepeats := repeats_retyped hdecls
      (fun n hn => hparams n (List.mem_filter.1 hn).1) style
    rw [← htext, String.ofList_toList, ← hlines] at hrepeats
    exact ⟨hrepeats.quiet, hrepeats.echoes hhost (congrArg linesOf hinput)⟩

end Piped

/-- An import and a function around one with parameters, indented with tabs. -/
theorem echoes_text_nested :
    let text := "use 'a':\x7b\n\tb\n\x7d\n\n" ++
      "fn f() \x7b\n\tfn g(\n\t\tn i32\n\t) \x7b\x7d\n\tuse 'c'\n\x7d\n\n"
    (Source.interactive
      "use 'a':\x7bb\x7d fn f()\x7bfn g(n i32)\x7b\x7d use 'c'\x7d").format ⟨2, true⟩ =
      .ok text ∧ Machine.host.Piped Machine.streams Machine.linesOf ∧
    Quiet ⟨2, true⟩ (Machine.linesOf text) ∧ MachineEchoes ⟨2, true⟩ text text := by
  intro text
  have hformat : (Source.interactive
      "use 'a':\x7bb\x7d fn f()\x7bfn g(n i32)\x7b\x7d use 'c'\x7d").format ⟨2, true⟩ =
        .ok text := by decide +kernel
  have hnone : ((Source.mk "a" text).parse.map fun p =>
      p.children.all fun n => !n.hasParams) = .ok true := by decide +kernel
  have hinput : (Machine.start (.ofFiles []) [] text).streams.input = text := rfl
  cases hparse : (Source.mk "a" text).parse with
  | error e =>
    rw [hparse] at hnone
    cases hnone
  | ok p =>
    rw [hparse] at hnone
    have hparams : ∀ n ∈ p.children, n.hasParams = false := by
      simpa [Except.map] using hnone
    exact ⟨hformat, Machine.host_piped,
      (echoes_text_iff Machine.host_piped hinput hformat hparse (by decide +kernel)).2 hparams⟩

/-- **A function with parameters cannot be typed back in**, nor can a string with a backspace: the
first line of the one is answered by itself, and the backspace in the other takes a character
away. -/
theorem not_echoes_params :
    ((Source.interactive "fn f(n i32) \x7b\x7d").format .standard =
        .ok "fn f(\n  n i32\n) \x7b\x7d\n\n" ∧
      (Source.interactive "fn f(\n  n i32\n) \x7b\x7d\n\n").IsProgram ∧
      ¬ Quiet .standard (Machine.linesOf "fn f(\n  n i32\n) \x7b\x7d\n\n") ∧
      ¬ MachineEchoes .standard "fn f(\n  n i32\n) \x7b\x7d\n\n"
        "fn f(\n  n i32\n) \x7b\x7d\n\n") ∧
    ((Source.interactive "use 'a\x08'").format .standard = .ok "use 'a\x08'\n\n" ∧
      (Source.interactive "use 'a\x08'\n\n").IsProgram ∧
      ¬ MachineEchoes .standard "use 'a\x08'\n\n" "use 'a\x08'\n\n") := by
  have hquiet : ¬ Quiet .standard (Machine.linesOf "fn f(\n  n i32\n) \x7b\x7d\n\n") := by
    have hblock : "fn f(\n" ∈
        blocks (read "" (Machine.linesOf "fn f(\n  n i32\n) \x7b\x7d\n\n")).1 := by
      decide +kernel
    intro hquiet
    obtain ⟨text, hanswer⟩ := quiet_iff.1 hquiet _ hblock
    have hformat := format_of_answer hanswer
    have herror : (Source.interactive "fn f(\n").format .standard = .error
        (.grammatical ⟨.expected "parameter name" .eof, ⟨2, 1, 6⟩⟩) := by decide +kernel
    rw [hformat] at herror
    cases herror
  have hbackspace : MachineEchoes .standard "use 'a\x08'\n\n" "use ''\n\n" := by
    have hread : read "" (Machine.linesOf "use 'a\x08'\n\n") =
        ([("use ''", .submit "use ''\n"), ("", .skip)], "") := by decide +kernel
    have hanswer : answer .standard "use ''\n" = .formatted "use ''\n\n" := by decide +kernel
    have hrest : Repeats .standard ([("", .skip)], "") "" :=
      (Repeats.nil _).cons (by rintro ⟨⟩) rfl
    refine Repeats.echoes ?_ Machine.host_piped rfl
    rw [hread]
    exact hrest.submit hanswer
  refine ⟨⟨by decide +kernel, ?_, hquiet, fun h => hquiet h.toRepeats.quiet⟩,
    by decide +kernel, ?_, fun h => ?_⟩
  · exact Source.isProgram_iff.2 (by decide +kernel)
  · exact Source.isProgram_iff.2 (by decide +kernel)
  · exact absurd (hbackspace.unique h) (by decide)

end Session

end Curly
