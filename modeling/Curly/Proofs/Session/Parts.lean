import Curly.Proofs.Session.Completeness
import Curly.Proofs.Tree.Unplaced

/-!
# The parts of a program

Where a program is cut at a line end and the part before it can be formatted, so can the part
after it, and the canonical texts join up to that of the program (`exists_format_of_cut`). How the
lines end makes no difference to the canonical text (`format_relined`). A program that is blank has
none, and no program begins with a colon.
-/

namespace Curly

open Grammar

variable {ts us vs : List Token} {t : Token} {nodes ms : List Node} {src : Source}
  {style : Layout.Style}

/-! ## Blanks -/

namespace Grammar

/-- Spacing and line ends are items, and nothing of them is printed. -/
theorem exists_items_of_blank (h : ∀ t ∈ ts, t.kind = .spacing ∨ t.kind = .newline) :
    ∃ nodes, Items ts nodes ∧ ∀ unit, Layout.nodesText unit nodes = [] := by
  induction ts with
  | nil => exact ⟨[], .nil, fun _ => rfl⟩
  | cons t ts ih =>
    obtain ⟨ht, hts⟩ := List.forall_mem_cons.1 h
    obtain ⟨nodes, hitems, hblank⟩ := ih hts
    rcases ht with ht | ht
    · refine ⟨_, .spacing ht hitems, fun unit => ?_⟩
      rw [Layout.nodesText_of_trivia rfl, hblank]
    · refine ⟨_, .newline ht hitems, fun unit => ?_⟩
      rw [Layout.nodesText_of_trivia rfl, hblank]

/-- Items begin with trivia or a keyword. -/
theorem Items.cons_cases (h : Items (t :: ts) nodes) :
    (t.kind.isTrivia ∧ ∃ ms, Items ts ms) ∨ ∃ k, t.kind = .keyword k := by
  generalize hall : t :: ts = all at h
  cases h with
  | nil => cases hall
  | spacing isTrivia later | newline isTrivia later | comment isTrivia later =>
    obtain ⟨rfl, rfl⟩ := List.cons.inj hall
    exact .inl ⟨by rw [isTrivia]; rfl, _, later⟩
  | use_ isUse => cases isUse with
    | plain isUse | including isUse =>
      obtain ⟨rfl, -⟩ := List.cons.inj hall
      exact .inr ⟨_, isUse⟩
  | enum isEnum => cases isEnum with
    | intro isEnum =>
      obtain ⟨rfl, -⟩ := List.cons.inj hall
      exact .inr ⟨_, isEnum⟩
  | fn isHead => cases isHead with
    | intro isFn =>
      obtain ⟨rfl, -⟩ := List.cons.inj hall
      exact .inr ⟨_, isFn⟩

/-- Items after trivia are items. -/
theorem Items.exists_after_trivia (h : Items (us ++ vs) nodes) (hus : Trivia us) :
    ∃ ms, Items vs ms := by
  induction us generalizing nodes with
  | nil => exact ⟨nodes, h⟩
  | cons u us ih =>
    obtain ⟨hu, hus'⟩ := List.forall_mem_cons.1 hus
    obtain ⟨-, ms, hms⟩ | ⟨k, hk⟩ := Items.cons_cases h
    · exact ih hms hus'
    · rw [hk] at hu
      cases hu

/-- Where the part before a cut is a program, the cut is between two items. -/
theorem LineCut.exists_between (h : LineCut us vs nodes) (hus : Items us ms) :
    ∃ upper lower, nodes = upper ++ lower ∧ Items us upper ∧ Items vs lower := by
  cases h with
  | between split upper lower => exact ⟨_, _, split, upper, lower⟩
  | inParams isOpen =>
    have hone := isOpen.parens
    rw [hus.balanced.parens] at hone
    cases hone
  | inBraces isOpen => exact absurd hus.balanced.braces isOpen.ne'

end Grammar

/-! ## Parts -/

namespace Source

/-- The canonical text of a source is that of the nodes which its tokens derive. -/
theorem format_of_items (h : Items us nodes) (hus : Tokenizes .origin src.chars (.ok us)) :
    src.format style = .ok (String.ofList (Layout.nodesText style.unit nodes)) :=
  format_of_parse style (parse_of_items (tokens?_of_tokenizes hus) h)

/-- It is the same for tokens that differ from these in their places. -/
theorem format_of_unplaced (h : Items ts nodes) (hus : Tokenizes .origin src.chars (.ok us))
    (hsame : us.map Token.unplaced = ts.map Token.unplaced) :
    src.format style = .ok (String.ofList (Layout.nodesText style.unit nodes)) := by
  obtain ⟨nodes', hitems, hspans⟩ := h.exists_of_unplaced hus hsame
  rw [format_of_items hitems hus, ← Layout.nodesText_eraseSpans, hspans,
    Layout.nodesText_eraseSpans]

variable {s t name name' : String} {text upper : String}

/-- The name of a source does not matter to its canonical text. -/
theorem format_rename (h : (Source.mk name s).format style = .ok text) (name' : String) :
    (Source.mk name' s).format style = .ok text := by
  obtain ⟨p, hp, rfl⟩ := exists_parse_of_format h
  obtain ⟨ts, hcut, -, -, hitems⟩ := exists_items_of_parse hp
  exact format_of_items hitems hcut

/-- **Formatting distributes over a cut at a line end** where the part before it is a program. -/
theorem exists_format_of_cut (hs : ∀ c ∈ s.toList.getLast?, c = '\n')
    (h : (Source.mk name (s ++ t)).format style = .ok text)
    (hupper : (Source.mk name' s).format style = .ok upper) :
    ∃ lower, (Source.mk name' t).format style = .ok lower ∧ text = upper ++ lower := by
  obtain ⟨p, hp, rfl⟩ := exists_parse_of_format h
  obtain ⟨q, hq, -⟩ := exists_parse_of_format hupper
  obtain ⟨us, vs, hus, hvs, -, hcut⟩ := Session.exists_lineCut hs hp
  obtain ⟨ms, hms⟩ := (Session.isProgram_iff_of_tokenizes hus).1 ⟨q, hq⟩
  obtain ⟨before, after, hchildren, hbefore, hafter⟩ := hcut.exists_between hms
  have hs' : (Source.mk name' s).format style = _ := format_of_items hbefore hus
  obtain rfl := Except.ok.inj (hs'.symm.trans hupper)
  obtain ⟨vs', hvs', hsame⟩ := hvs.exists_at .origin
  refine ⟨_, format_of_unplaced hafter hvs' hsame, ?_⟩
  rw [hchildren, Layout.nodesText_append, String.ofList_append]

/-- **The ends of its lines make no difference** to the canonical text of a source. -/
theorem format_relined (h : (Source.mk name s).format style = .ok text) :
    (Source.mk name' (String.ofList (Text.relined s.toList))).format style = .ok text := by
  obtain ⟨p, hp, rfl⟩ := exists_parse_of_format h
  obtain ⟨ts, hcut, -, -, hitems⟩ := exists_items_of_parse hp
  obtain ⟨us, tail, hus, hsame, htail⟩ := hcut.exists_relined hitems.ne_template .origin
  obtain ⟨ends, hends, hblank⟩ := exists_items_of_blank fun t ht => .inr (htail t ht)
  have hsame' : (us ++ tail).map Token.unplaced = (ts ++ tail).map Token.unplaced := by
    rw [List.map_append, hsame, List.map_append]
  rw [format_of_unplaced (hitems.append hends) (by rwa [chars, String.toList_ofList]) hsame',
    Layout.nodesText_append, hblank, List.append_nil]

/-- A blank beginning of a program has no canonical text. -/
theorem format_of_allBlank (hs : Text.allBlank s.toList)
    (hlast : ∀ c ∈ s.toList.getLast?, c = '\n') (h : (Source.mk name (s ++ t)).IsProgram) :
    (Source.mk name' s).format style = .ok "" := by
  obtain ⟨p, hp⟩ := h
  obtain ⟨us, vs, hus, -⟩ := Session.exists_lineCut hlast hp
  have hcut := hus
  rw [← List.append_nil s.toList] at hcut
  obtain ⟨us', vs', rfl, hus', hvs'⟩ := hcut.exists_blanks hs nofun
  obtain rfl := hvs'.eq_nil
  rw [List.append_nil] at hus
  obtain ⟨nodes, hitems, hblank⟩ := exists_items_of_blank hus'
  have hformat : (Source.mk name' s).format style = _ := format_of_items hitems hus
  rw [hformat, hblank, String.ofList_nil]

end Source

/-! ## Colons -/

theorem Lexeme.of_colon {cs : List Char} {kind : Token.Kind} (h : Lexeme (':' :: cs) (.ok kind)) :
    kind = .colon ∨ kind = .walrus := by
  have all : ∀ x ∈ fixedLexemes, x.1.head? = some ':' → x.2 = .colon ∨ x.2 = .walrus := by decide
  exact all _ (h.mem_fixedLexemes_of_head (by decide) (by decide)) rfl

/-- **No program begins with a colon**, also after blanks. -/
theorem Source.not_isProgram_of_colon {blanks rest : List Char} (hblanks : Text.allBlank blanks)
    (hsrc : src.chars = blanks ++ ':' :: rest) : ¬ src.IsProgram := by
  rintro ⟨p, hp⟩
  obtain ⟨ts, hcut, -, -, hitems⟩ := exists_items_of_parse hp
  rw [hsrc] at hcut
  obtain ⟨us, vs, rfl, hus, hvs⟩ := hcut.exists_blanks hblanks
    (by
      rintro c ⟨⟩
      rfl)
  have htrivia : Trivia us := by
    intro u hu
    rcases hus u hu with hkind | hkind <;> rw [hkind] <;> rfl
  obtain ⟨ms, hms⟩ := hitems.exists_after_trivia htrivia
  obtain ⟨hnil, -⟩ | ⟨lexeme, later, t, ts, hsplit, rfl, reads, -⟩ := hvs.ok_cases
  · cases hnil
  cases reads with
  | @token _ kind isLongest =>
    obtain ⟨c, cs, rfl⟩ := List.exists_cons_of_ne_nil isLongest.isLexeme.ne_nil
    obtain rfl : ':' = c := (List.cons.inj hsplit).1
    rcases isLongest.isLexeme.of_colon with rfl | rfl <;>
      obtain ⟨h, -⟩ | ⟨k, hk⟩ := Items.cons_cases hms <;> contradiction

end Curly
