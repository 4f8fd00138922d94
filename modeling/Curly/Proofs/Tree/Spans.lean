import Curly.Proofs.Token.Contiguous
import Curly.Proofs.Tree.Legal
import Curly.Proofs.Tree.Parsing
import Curly.Proofs.Tree.Shape

/-!
# Where nodes stand

The nodes of a program stand in a row from the start of the text to its end, and those of a body
between the braces around it: trivia before or after a declaration is in a node beside it and in no
declaration. `Node.Placed` says of a node which tokens of the text it covers, and
`Source.contiguous_of_parse` that every node at every depth is placed.
-/

namespace Curly

open Grammar

/-- The tokens `us` stand in a row among the tokens `ts`, the first and the last of them are of
these kinds, and the span goes from the start of the first to the end of the last. -/
structure Spans (ts us : List Token) (first last : Token.Kind) (span : Span) : Prop where
  inRow : us <:+: ts
  starts : ∃ t ∈ us.head?, t.kind = first ∧ t.span.start = span.start
  stops : ∃ t ∈ us.getLast?, t.kind = last ∧ t.span.stop = span.stop

/-- The values of an enumeration stand inside it, one after the other, and each covers its name. -/
structure EnumDecl.ValuesPlaced (src : Source) (d : EnumDecl) : Prop where
  names : ∀ v ∈ d.values, src.slice? v.span = some v.name
  inside : ∀ v ∈ d.values, d.span.start.offset ≤ v.span.start.offset ∧
    v.span.start.offset < v.span.stop.offset ∧ v.span.stop.offset ≤ d.span.stop.offset
  inOrder : d.values.Pairwise fun v w => v.span.stop.offset ≤ w.span.start.offset

/-- What a node covers of a text with the tokens `ts`. -/
inductive Node.Placed (src : Source) (ts : List Token) : Node → Prop
  /-- A piece of trivia covers one token. -/
  | trivia {n : Node} {t : Token} (isTrivia : n.isTrivia) (isToken : t ∈ ts)
    (span : n.span = t.span) : Node.Placed src ts n
  /-- An import goes from its keyword to its string, or to the brace that closes its list. -/
  | use_ {us : List Token} {d : UseDecl} (derives : Use us d)
    (spans : Spans ts us (.keyword .use_) (if d.includes = none then .string else .rbrace) d.span) :
    Node.Placed src ts (.use_ d)
  /-- An enumeration goes from its keyword to its closing brace, with its values inside. -/
  | enum {us : List Token} {d : EnumDecl} (derives : Enum us d)
    (spans : Spans ts us (.keyword .enum) .rbrace d.span) (values : d.ValuesPlaced src) :
    Node.Placed src ts (.enum d)
  /-- A function goes from its keyword to the closing brace of its body, whose nodes fill all that
  is between the braces. -/
  | fn {hs bs : List Token} {opening closing : Token} {head : FnHead} {body : List Node}
    {span : Span} (isHead : Head hs span.start head) (isBody : Items bs body)
    (spans : Spans ts (hs ++ opening :: (bs ++ [closing])) (.keyword .fn) .rbrace span)
    (opens : src.slice? opening.span = some "\x7b")
    (closes : src.slice? closing.span = some "\x7d")
    (fills : Contiguous opening.span.stop (body.map Node.span) closing.span.start) :
    Node.Placed src ts (.fn head body span)

variable {src : Source} {ts us all : List Token} {p q : Position} {nodes : List Node}

/-! ## Tokens of a declaration -/

theorem Spans.ends {first last : Token.Kind} {span : Span} (h : Spans ts us first last span)
    (hrow : Contiguous p (us.map Token.span) q) : span.start = p ∧ span.stop = q := by
  obtain ⟨t, ht, -, hstart⟩ := h.starts
  obtain ⟨u, hu, -, hstop⟩ := h.stops
  rw [← hstart, ← hstop]
  refine ⟨hrow.start_of_head ?_, hrow.stop_of_getLast ?_⟩
  · rw [List.head?_map, Option.mem_def.1 ht]
    rfl
  · rw [List.getLast?_map, Option.mem_def.1 hu]
    rfl

theorem Grammar.Use.spans {d : UseDecl} (h : Use us d) (hrow : us <:+: ts) :
    Spans ts us (.keyword .use_) (if d.includes = none then .string else .rbrace) d.span := by
  cases h with
  | @plain keyword string _ isUse _ isString =>
    exact ⟨hrow, ⟨keyword, rfl, isUse, rfl⟩, ⟨string, by simp [List.getLast?_cons], isString, rfl⟩⟩
  | @including keyword _ _ _ closing _ _ _ _ _ isUse _ _ _ _ _ _ _ isClosing =>
    exact ⟨hrow, ⟨keyword, rfl, isUse, rfl⟩,
      ⟨closing, by simp [List.getLast?_cons], isClosing, rfl⟩⟩

theorem Grammar.Enum.spans {d : EnumDecl} (h : Enum us d) (hrow : us <:+: ts) :
    Spans ts us (.keyword .enum) .rbrace d.span := by
  cases h with
  | @intro keyword _ _ closing _ _ _ _ isEnum _ _ _ _ _ isClosing =>
    exact ⟨hrow, ⟨keyword, rfl, isEnum, rfl⟩,
      ⟨closing, by simp [List.getLast?_cons], isClosing, rfl⟩⟩

theorem Grammar.Head.spans {hs bs : List Token} {opening closing : Token} {start : Position}
    {head : FnHead} (h : Head hs start head) (isClosing : closing.kind = .rbrace)
    (hrow : hs ++ opening :: (bs ++ [closing]) <:+: ts) :
    Spans ts (hs ++ opening :: (bs ++ [closing])) (.keyword .fn) .rbrace
      ⟨start, closing.span.stop⟩ := by
  cases h with
  | @intro keyword _ _ _ _ _ _ _ _ _ isFn =>
    exact ⟨hrow, ⟨keyword, rfl, isFn, rfl⟩, ⟨closing, by simp [List.getLast?_cons], isClosing, rfl⟩⟩

/-! ## Values of an enumeration -/

theorem Grammar.Spread.sublist {Gap : List Token → Prop} {names : List Token}
    (h : Spread Gap ts names) : names.Sublist ts := by
  induction h with
  | last => exact List.nil_sublist _
  | name _ _ _ ih => exact (ih.cons_cons _).trans (List.sublist_append_right _ _)

theorem Grammar.Spread.isIdentifier {Gap : List Token → Prop} {names : List Token}
    (h : Spread Gap ts names) : ∀ t ∈ names, t.kind = .identifier := by
  induction h with
  | last => simp
  | name _ isName _ ih => exact List.forall_mem_cons.2 ⟨isName, ih⟩

/-- All of the tokens cover lexemes of the text. -/
def AllCover (src : Source) (ts : List Token) : Prop := ∀ t ∈ ts, ∃ lexeme, t.Covers src lexeme

theorem AllCover.forward (h : AllCover src ts) :
    ∀ s ∈ ts.map Token.span, s.start.offset ≤ s.stop.offset := by
  intro s hs
  obtain ⟨t, ht, rfl⟩ := List.mem_map.1 hs
  obtain ⟨lexeme, hcovers⟩ := h t ht
  exact hcovers.nonempty.le

/-- An identifier covers its text. -/
theorem Token.Covers.slice?_text {t : Token} {lexeme : List Char} (h : t.Covers src lexeme)
    (ht : t.kind = .identifier) : src.slice? t.span = some t.text := by
  obtain ⟨-, hspelled, hslice⟩ := h
  have htext : t.text = t.kind.literal lexeme := congrArg Token.text hspelled
  rw [hslice, htext, ht]
  rfl

theorem Grammar.Enum.valuesPlaced {d : EnumDecl} (h : Enum us d) (hcover : AllCover src us)
    (hrow : Contiguous p (us.map Token.span) q) : d.ValuesPlaced src := by
  have hspan := (h.spans List.infix_rfl).ends hrow
  obtain ⟨⟨-, hinside⟩, hpairs⟩ := hrow.pairwise hcover.forward
  rw [List.pairwise_map] at hpairs
  cases h with
  | @intro keyword name opening closing gap gap₁ ts values _ _ _ _ _ spread =>
    have hsublist : values.Sublist (keyword :: (gap ++ name :: (gap₁ ++ opening ::
        (ts ++ [closing])))) := by
      refine (spread.sublist.trans (List.sublist_append_left ts [closing])).trans ?_
      refine ((List.sublist_cons_self opening _).trans (List.sublist_append_right gap₁ _)).trans ?_
      exact ((List.sublist_cons_self name _).trans (List.sublist_append_right gap _)).trans
        (List.sublist_cons_self keyword _)
    refine ⟨fun v hv => ?_, fun v hv => ?_, ?_⟩
    · obtain ⟨t, ht, rfl⟩ := List.mem_map.1 hv
      obtain ⟨lexeme, hcovers⟩ := hcover t (hsublist.subset ht)
      exact hcovers.slice?_text (spread.isIdentifier t ht)
    · obtain ⟨t, ht, rfl⟩ := List.mem_map.1 hv
      obtain ⟨lexeme, hcovers⟩ := hcover t (hsublist.subset ht)
      obtain ⟨hstart, hstop⟩ := hinside t.span (List.mem_map_of_mem (hsublist.subset ht))
      rw [hspan.1, hspan.2]
      exact ⟨hstart, hcovers.nonempty, hstop⟩
    · rw [List.pairwise_map]
      exact hpairs.sublist hsublist

/-! ## Braces -/

theorem Lexeme.eq_lbrace {cs : List Char} (h : Lexeme cs (.ok .lbrace)) : cs = ['\x7b'] := by
  have all : ∀ x ∈ fixedLexemes, x.2 = .lbrace → x.1 = ['\x7b'] := by decide
  exact all _ (h.mem_fixedLexemes_of_kind (by decide)) rfl

theorem Lexeme.eq_rbrace {cs : List Char} (h : Lexeme cs (.ok .rbrace)) : cs = ['\x7d'] := by
  have all : ∀ x ∈ fixedLexemes, x.2 = .rbrace → x.1 = ['\x7d'] := by decide
  exact all _ (h.mem_fixedLexemes_of_kind (by decide)) rfl

theorem AllCover.slice?_lbrace {t : Token} (h : AllCover src ts) (hmem : t ∈ ts)
    (ht : t.kind = .lbrace) : src.slice? t.span = some "\x7b" := by
  obtain ⟨lexeme, hlexeme, -, hslice⟩ := h t hmem
  rw [ht] at hlexeme
  rw [hslice, hlexeme.eq_lbrace]

theorem AllCover.slice?_rbrace {t : Token} (h : AllCover src ts) (hmem : t ∈ ts)
    (ht : t.kind = .rbrace) : src.slice? t.span = some "\x7d" := by
  obtain ⟨lexeme, hlexeme, -, hslice⟩ := h t hmem
  rw [ht] at hlexeme
  rw [hslice, hlexeme.eq_rbrace]

/-! ## Programs and bodies -/

/-- The nodes stand in a row from `p` to `q`, and at every depth each of them is placed. -/
structure NodesPlaced (src : Source) (ts : List Token) (p : Position) (nodes : List Node)
    (q : Position) : Prop where
  row : Contiguous p (nodes.map Node.span) q
  placed : ∀ n : Node, n.Within nodes → n.Placed src ts

/-- One more node in front, with what is in its body. -/
theorem NodesPlaced.cons {n : Node} (h : NodesPlaced src ts n.span.stop nodes q)
    (hstart : n.span.start = p) (hn : n.Placed src ts)
    (hbody : ∀ head body span, n = .fn head body span →
      ∀ m : Node, m.Within body → m.Placed src ts) :
    NodesPlaced src ts p (n :: nodes) q := by
  refine ⟨Contiguous.cons_iff.2 ⟨hstart, h.row⟩, fun m hm => ?_⟩
  cases hm with
  | here => exact hn
  | later inRest => exact h.placed m inRest
  | inside inBody => exact hbody _ _ _ rfl m inBody

/-- A function whose body is in place between its braces. -/
theorem NodesPlaced.placed_fn {hs bs : List Token} {start : Position} {head : FnHead}
    {opening closing : Token} {body : List Node} (isHead : Head hs start head)
    (isOpening : opening.kind = .lbrace) (isBody : Items bs body)
    (isClosing : closing.kind = .rbrace) (hcover : AllCover src all)
    (hpart : hs ++ opening :: (bs ++ [closing]) <:+: all)
    (hbody : NodesPlaced src all opening.span.stop body closing.span.start) :
    Node.Placed src all (.fn head body ⟨start, closing.span.stop⟩) :=
  .fn isHead isBody (isHead.spans isClosing hpart)
    (hcover.slice?_lbrace (hpart.subset (by simp)) isOpening)
    (hcover.slice?_rbrace (hpart.subset (by simp)) isClosing) hbody.row

/-- **The nodes that derive from tokens in a row stand in a row**, and at every depth each of them
is placed. -/
theorem Grammar.Items.placed (h : Items ts nodes) (hcover : AllCover src all)
    (hpart : ts <:+: all) (hrow : Contiguous p (ts.map Token.span) q) :
    NodesPlaced src all p nodes q := by
  induction h generalizing p q with
  | nil => exact ⟨hrow, nofun⟩
  | @spacing t ts nodes _ _ ih | @newline t ts nodes _ _ ih | @comment t ts nodes _ _ ih =>
    obtain ⟨hstart, hlater⟩ := Contiguous.cons_iff.1 hrow
    exact .cons (ih ((List.suffix_cons t ts).isInfix.trans hpart) hlater) hstart
      (.trivia rfl (hpart.subset List.mem_cons_self) rfl) nofun
  | @use_ us ts d nodes isUse _ ih =>
    rw [List.map_append, Contiguous.append_iff] at hrow
    obtain ⟨r, hus, hlater⟩ := hrow
    have hspans := isUse.spans ((List.prefix_append us ts).isInfix.trans hpart)
    obtain ⟨hstart, hstop⟩ := hspans.ends hus
    subst hstop
    exact .cons (ih ((List.suffix_append us ts).isInfix.trans hpart) hlater) hstart
      (.use_ isUse hspans) nofun
  | @enum es ts d nodes isEnum _ ih =>
    rw [List.map_append, Contiguous.append_iff] at hrow
    obtain ⟨r, hes, hlater⟩ := hrow
    have hes' := (List.prefix_append es ts).isInfix.trans hpart
    have hspans := isEnum.spans hes'
    obtain ⟨hstart, hstop⟩ := hspans.ends hes
    subst hstop
    exact .cons (ih ((List.suffix_append es ts).isInfix.trans hpart) hlater) hstart
      (.enum isEnum hspans (isEnum.valuesPlaced (fun t ht => hcover t (hes'.subset ht)) hes)) nofun
  | @fn hs bs ts start head opening closing body nodes isHead isOpening isBody isClosing _
      ihBody ih =>
    have hsplit : hs ++ opening :: (bs ++ closing :: ts) =
        (hs ++ opening :: (bs ++ [closing])) ++ ts := by simp
    rw [hsplit] at hpart hrow
    rw [List.map_append, Contiguous.append_iff] at hrow
    obtain ⟨r, hfn, hlater⟩ := hrow
    have hfn' := (List.prefix_append _ ts).isInfix.trans hpart
    obtain ⟨hstart, hstop⟩ := (isHead.spans isClosing hfn').ends hfn
    have hbs : bs <:+: hs ++ opening :: (bs ++ [closing]) := ⟨hs ++ [opening], [closing], by simp⟩
    have hbody : NodesPlaced src all opening.span.stop body closing.span.start := by
      simp only [List.map_append, List.map_cons, List.map_nil, Contiguous.append_iff,
        Contiguous.cons_iff, Contiguous.nil_iff] at hfn
      obtain ⟨r₁, -, -, r₂, hbody, rfl, -⟩ := hfn
      exact ihBody (hbs.trans hfn') hbody
    subst hstop
    refine .cons (ih ((List.suffix_append _ ts).isInfix.trans hpart) hlater) hstart
      (hbody.placed_fn isHead isOpening isBody isClosing hcover hfn') ?_
    rintro _ _ _ ⟨⟩
    exact hbody.placed

namespace Source

/-- **The tree's spans tile the text.** The nodes of a program stand in a row from the start of the
text to its end, and every node at every depth is placed in it: a declaration goes from its keyword
to its last token, and a body fills all that is between its braces. -/
theorem contiguous_of_parse (src : Source) (p : Program) (h : src.parse = .ok p) :
    ∃ ts, src.tokens? = .ok (ts ++ [Token.endOfInput src.stop]) ∧
      Contiguous Position.origin (p.children.map Node.span) src.stop ∧
      src.stop.offset = src.byteLength ∧ (p.children = [] → src.text = "") ∧
      ∀ n : Node, n.Within p.children → n.Placed src ts := by
  obtain ⟨ts, hcut, htokens, -, hitems⟩ := exists_items_of_parse h
  have hplaced := hitems.placed (Tokenizes.exists_covers [] hcut rfl) List.infix_rfl hcut.contiguous
  refine ⟨ts, htokens, hplaced.row, src.stop_offset, fun hnil => ?_, hplaced.placed⟩
  have hrow := hplaced.row
  rw [hnil, List.map_nil, Contiguous.nil_iff] at hrow
  have hlength : src.byteLength = 0 := by
    rw [← src.stop_offset, stop, ← hrow]
    rfl
  exact String.utf8ByteSize_eq_zero_iff.1 hlength

/-- A line end and an enumeration in a body. -/
theorem contiguous_of_parse_nested :
    ∃ p ts, (⟨"a", "fn f() \x7b\nenum E \x7bA B\x7d\x7d"⟩ : Source).parse = .ok p ∧
      (⟨"a", "fn f() \x7b\nenum E \x7bA B\x7d\x7d"⟩ : Source).tokens? =
        .ok (ts ++ [Token.endOfInput ⟨2, 14, 22⟩]) ∧
      p.children.map Node.span = [⟨⟨1, 1, 0⟩, ⟨2, 14, 22⟩⟩] ∧
      ∀ n : Node, n.Within p.children →
        n.Placed ⟨"a", "fn f() \x7b\nenum E \x7bA B\x7d\x7d"⟩ ts := by
  have hparse : (⟨"a", "fn f() \x7b\nenum E \x7bA B\x7d\x7d"⟩ : Source).parse = .ok ⟨"a",
      [.fn ⟨"f", [], none, false⟩
        [.newline ⟨⟨1, 9, 8⟩, ⟨2, 1, 9⟩⟩,
          .enum ⟨"E", [⟨"A", ⟨⟨2, 9, 17⟩, ⟨2, 10, 18⟩⟩⟩, ⟨"B", ⟨⟨2, 11, 19⟩, ⟨2, 12, 20⟩⟩⟩],
            ⟨⟨2, 1, 9⟩, ⟨2, 13, 21⟩⟩⟩]
        ⟨⟨1, 1, 0⟩, ⟨2, 14, 22⟩⟩]⟩ := by decide +kernel
  obtain ⟨ts, htokens, -, -, -, hplaced⟩ := contiguous_of_parse _ _ hparse
  exact ⟨_, ts, hparse, htokens, rfl, hplaced⟩

end Source

end Curly
