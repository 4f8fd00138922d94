import Curly.Proofs.Layout.Relexing
import Curly.Proofs.Layout.Reparsing
import Curly.Proofs.Tree.ArrowBody
import Curly.Proofs.Tree.Parsing

/-!
# Formatting twice

Canonical text is read as a tree of the same shape and formats to itself, unless some body in it
has exactly one declaration: that is written after an arrow, which the grammar has no place for,
and reading stops at the first arrow (`Source.format_roundTrip`).
-/

namespace Curly

open Piece Grammar

namespace Layout

variable {unit : List Char} {ns ms : List Node} {ts us : List Token}

/-! ## The first arrow -/

/-- There is an arrow in the tokens, and what comes before it may begin a program. -/
def StopsAtArrow (ts : List Token) : Prop :=
  ∃ us t vs, ts = us ++ t :: vs ∧ t.kind = .arrow ∧ UpToArrow us

theorem StopsAtArrow.append (h : StopsAtArrow ts) (vs : List Token) : StopsAtArrow (ts ++ vs) := by
  obtain ⟨us, t, ws, rfl, ht, hus⟩ := h
  exact ⟨us, t, ws ++ vs, by simp, ht, hus⟩

/-- Items before do not matter. -/
theorem StopsAtArrow.after (h : StopsAtArrow us) (hts : Rereads ts ns) :
    StopsAtArrow (ts ++ us) := by
  obtain ⟨us, t, vs, rfl, ht, hus⟩ := h
  obtain ⟨ms, hitems, -⟩ := hts
  exact ⟨ts ++ us, t, vs, by simp, ht, .items hitems hus⟩

/-- Nor does being in a body between braces. -/
theorem StopsAtArrow.inside {hs : List Token} {start : Position} {head : FnHead} {opening : Token}
    (h : StopsAtArrow ts) (hhead : Head hs start head) (hopening : opening.kind = .lbrace) :
    StopsAtArrow (hs ++ opening :: ts) := by
  obtain ⟨us, t, vs, rfl, ht, hus⟩ := h
  exact ⟨hs ++ opening :: us, t, vs, by simp, ht, .body hhead hopening hus⟩

/-- A function in whose text there is an arrow. -/
theorem stopsAtArrow_fn {head : FnHead} {body : List Node} {d : Nat} (h : head.Legal)
    (hsingle : (declarations body).length = 1 ∨ (declarations body).length ≠ 0 ∧
      ∀ p, StopsAtArrow (place p ((declPieces unit (d + 1) body).flatMap
        fun x => lineBreak unit (d + 1) ++ x))) (span : Span) (p : Position) :
    StopsAtArrow (place p (nodePieces unit d (.fn head body span))) := by
  rw [nodePieces, place_append]
  rcases hcount : (declarations body).length with _ | _ | count
  · rcases hsingle with hone | ⟨hne, -⟩
    · rw [hcount] at hone
      cases hone
    · exact absurd hcount hne
  · exact ⟨_, _, _, rfl, rfl, .head (head_pieces h d p)⟩
  · rcases hsingle with hone | ⟨-, hbody⟩
    · rw [hcount] at hone
      cases hone
    · rw [bodyPieces_many, List.append_assoc, List.singleton_append, place_cons, place_append]
      exact ((hbody _).append _).inside (head_pieces h d p) rfl

/-- **Canonical text with a body after an arrow** may begin a program up to its first arrow. -/
theorem stopsAtArrow_of_legal (unit : List Char) (h : Legal ns) (hsingle : HasSingleBody ns)
    {before after : List Piece} (hbefore : Blanks before) (hafter : Blanks after) (d : Nat)
    (p : Position) :
    StopsAtArrow (place p ((declPieces unit d ns).flatMap fun x => before ++ x ++ after)) := by
  induction h generalizing before after d p with
  | nil => cases hsingle
  | trivia isTrivia _ ih =>
    rw [declPieces_of_trivia isTrivia]
    cases hsingle with
    | here | inside => cases isTrivia
    | later inRest => exact ih inRest hbefore hafter d p
  | use_ decl _ ih =>
    rw [declPieces_of_decl rfl, List.flatMap_cons, place_append]
    cases hsingle with
    | later inRest =>
      exact (ih inRest hbefore hafter d _).after
        (rereads_decl (.use_ decl .nil) rfl nofun hbefore hafter d p)
  | enum decl _ ih =>
    rw [declPieces_of_decl rfl, List.flatMap_cons, place_append]
    cases hsingle with
    | later inRest =>
      exact (ih inRest hbefore hafter d _).after
        (rereads_decl (.enum decl .nil) rfl nofun hbefore hafter d p)
  | @fn head body ns span isHead isBody _ ihBody ih =>
    rw [declPieces_of_decl rfl, List.flatMap_cons, place_append]
    by_cases hfn : HasSingleBody [.fn head body span]
    · have hstop : ∀ p, StopsAtArrow (place p (nodePieces unit d (.fn head body span))) := by
        refine stopsAtArrow_fn isHead ?_ span
        cases hfn with
        | here single => exact .inl single
        | inside inBody =>
          refine .inr ⟨fun h => not_hasSingleBody_of_no_declarations h inBody, fun p => ?_⟩
          have hbody := ihBody inBody (blanks_lineBreak unit (d + 1)) blanks_nil (d + 1) p
          simpa only [List.append_nil] using hbody
        | later h => cases h
      rw [place_append, place_append]
      exact (((hstop _).after (rereads_blanks hbefore p)).append _).append _
    · have hrest : HasSingleBody ns := by
        cases hsingle with
        | here single => exact absurd (.here single) hfn
        | inside inBody => exact absurd (.inside inBody) hfn
        | later inRest => exact inRest
      exact (ih hrest hbefore hafter d _).after
        (rereads_decl (.fn isHead isBody .nil) rfl hfn hbefore hafter d p)

end Layout

/-! ## Formatting -/

namespace Source

variable {src : Source} {style : Layout.Style} {text : String} {p : Program}

/-- The tree of a text is legal. -/
theorem legal_of_parse (h : src.parse = .ok p) : Legal p.children := by
  obtain ⟨ts, hcut, -, -, hitems⟩ := exists_items_of_parse h
  exact hitems.legal hcut.isSpelled

theorem format_of_parse (style : Layout.Style) (h : src.parse = .ok p) :
    src.format style = .ok (String.ofList (Layout.nodesText style.unit p.children)) := by
  rw [format, h]
  show Except.ok (String.ofList (Layout.nodesText style.unit (stripTrivia p.children))) = _
  rw [Layout.nodesText_stripTrivia]

theorem exists_parse_of_format (h : src.format style = .ok text) :
    ∃ p, src.parse = .ok p ∧ text = String.ofList (Layout.nodesText style.unit p.children) := by
  cases hp : src.parse with
  | error e =>
    rw [format, hp] at h
    cases h
  | ok p =>
    rw [format_of_parse style hp] at h
    exact ⟨p, rfl, (Except.ok.inj h).symm⟩

theorem parse_eq_error_of_format {e : SourceError} (h : src.format style = .error e) :
    src.parse = .error e := by
  cases hp : src.parse with
  | error e' =>
    rw [format, hp] at h
    rw [← Except.error.inj h]
  | ok p =>
    rw [format_of_parse style hp] at h
    cases h

/-- The text of a legal tree without single bodies is read as a tree of the same shape. -/
theorem exists_parse_of_chars {ns : List Node} (h : Legal ns) (hsingle : ¬ HasSingleBody ns)
    (hchars : src.chars = Layout.nodesText style.unit ns) :
    ∃ p, src.parse = .ok p ∧ SameShape p.children ns := by
  have htokens := Layout.tokens?_text (Layout.isUnit_unit style) h hchars
  have hblank : Layout.Blanks [newline, newline] := by simp [Layout.Blanks, newline]
  obtain ⟨ms, hitems, hshape⟩ := Layout.rereads_of_legal style.unit h hsingle
    Layout.blanks_nil hblank 0 Position.origin
  exact ⟨⟨src.name, ms⟩, parse_of_items htokens hitems, hshape⟩

/-- The text of a legal tree with a single body is not read beyond its first arrow. -/
theorem parse_eq_error_of_chars {ns : List Node} (h : Legal ns) (hsingle : HasSingleBody ns)
    (hchars : src.chars = Layout.nodesText style.unit ns) :
    ∃ before arrow after, src.tokens? = .ok (before ++ arrow :: after) ∧ arrow.kind = .arrow ∧
      (∀ t ∈ before, t.kind ≠ .arrow) ∧
      src.parse = .error (.grammatical ⟨.notImplemented .arrowBodies, arrow.span.start⟩) := by
  have htokens := Layout.tokens?_text (Layout.isUnit_unit style) h hchars
  have hblank : Layout.Blanks [newline, newline] := by simp [Layout.Blanks, newline]
  obtain ⟨before, arrow, after, hsplit, harrow, hbefore⟩ := Layout.stopsAtArrow_of_legal
    style.unit h hsingle Layout.blanks_nil hblank 0 Position.origin
  have hpieces : place Position.origin (Layout.programPieces style.unit ns) =
      before ++ arrow :: after := hsplit
  rw [hpieces, List.append_assoc, List.cons_append] at htokens
  obtain ⟨r, hrun, herror⟩ : ∃ r, Builder.run .program src.stop .empty
      (before ++ arrow :: (after ++ [Token.endOfInput src.stop])) = .error r ∧
        r.error = .ofToken (.notImplemented .arrowBodies) arrow :=
    Builder.run_upToArrow hbefore harrow [] []
  refine ⟨before, arrow, _, htokens, harrow, hbefore.ne_arrow, ?_⟩
  exact (parse_eq_error_of_tokens? htokens _).2 ⟨r, hrun, herror⟩

/-- Canonical text that can be formatted again is formatted as the source is. -/
theorem format_of_reformat {style' : Layout.Style} {name out : String}
    (h : src.format style = .ok text) (hagain : (Source.mk name text).format style' = .ok out) :
    src.format style' = .ok out := by
  obtain ⟨p, hparse, rfl⟩ := exists_parse_of_format h
  obtain ⟨q, hparse', rfl⟩ := exists_parse_of_format hagain
  have hlegal := legal_of_parse hparse
  have hchars : (⟨name, String.ofList (Layout.nodesText style.unit p.children)⟩ : Source).chars =
      Layout.nodesText style.unit p.children := String.toList_ofList
  by_cases hsingle : HasSingleBody p.children
  · obtain ⟨_, _, _, -, -, -, herror⟩ := parse_eq_error_of_chars hlegal hsingle hchars
    rw [hparse'] at herror
    cases herror
  · obtain ⟨q', hq', hshape⟩ := exists_parse_of_chars hlegal hsingle hchars
    obtain rfl := Except.ok.inj (hparse'.symm.trans hq')
    rw [format_of_parse style' hparse, Layout.nodesText_eq_of_sameShape hshape]

/-- What it means to read the text `again` that a source with the program `p` has been formatted
to, and to format it in some style. -/
structure FormatsAgain (src again : Source) (p : Program) (style : Layout.Style) : Prop where
  /-- Without single bodies the same declarations are read, and formatted as the source is. -/
  same : ¬ HasSingleBody p.children →
    (∃ p', again.parse = .ok p' ∧
      eraseSpans p'.strip.children = eraseSpans p.strip.children) ∧
    ∃ text, src.format style = .ok text ∧ again.format style = .ok text
  /-- A single body is written after an arrow, and reading stops at the first arrow. -/
  stops : HasSingleBody p.children →
    ∃ before arrow after, again.tokens? = .ok (before ++ arrow :: after) ∧
      arrow.kind = .arrow ∧ (∀ t ∈ before, t.kind ≠ .arrow) ∧
      again.parse = .error (.grammatical ⟨.notImplemented .arrowBodies, arrow.span.start⟩)

/-- **Formatting twice**, in any two styles and under any name. -/
theorem format_roundTrip (src : Source) (style style' : Layout.Style) (name text : String)
    (h : src.format style = .ok text) :
    ∃ p, src.parse = .ok p ∧ FormatsAgain src ⟨name, text⟩ p style' := by
  obtain ⟨p, hparse, rfl⟩ := exists_parse_of_format h
  have hlegal := legal_of_parse hparse
  have hchars : (⟨name, String.ofList (Layout.nodesText style.unit p.children)⟩ : Source).chars =
      Layout.nodesText style.unit p.children := String.toList_ofList
  refine ⟨p, hparse, fun hsingle => ?_, fun hsingle => ?_⟩
  · obtain ⟨p', hparse', hshape⟩ := exists_parse_of_chars hlegal hsingle hchars
    refine ⟨⟨p', hparse', hshape⟩, _, format_of_parse style' hparse, ?_⟩
    rw [format_of_parse style' hparse', Layout.nodesText_eq_of_sameShape hshape]
  · exact parse_eq_error_of_chars hlegal hsingle hchars

/-- A function with two more in its body. -/
theorem format_roundTrip_nested :
    ∃ p, (⟨"a", "fn f(n i32) \x7bfn g()\x7b\x7d fn h()\x7b\x7d\x7d"⟩ : Source).parse = .ok p ∧
      FormatsAgain ⟨"a", "fn f(n i32) \x7bfn g()\x7b\x7d fn h()\x7b\x7d\x7d"⟩
        ⟨"b", "fn f(\n  n i32\n) \x7b\n  fn g() \x7b\x7d\n  fn h() \x7b\x7d\n\x7d\n\n"⟩
        p ⟨1, true⟩ :=
  format_roundTrip _ .standard _ _ _ (by decide +kernel)

end Source

end Curly
