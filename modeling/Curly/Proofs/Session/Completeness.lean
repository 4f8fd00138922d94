import Curly.Proofs.Tree.ArrowBody
import Curly.Proofs.Tree.Balance
import Curly.Proofs.Tree.Parsing
import Curly.Session.Block

/-!
# Complete blocks

A session counts the braces of a block to tell whether it is complete. Where the block is the
beginning of a program up to a line end, this is right but for parameter lists: the block is
complete and no program just where it stops in a parameter list that no braces are open around
(`isComplete_linePrefix`).
-/

namespace Curly

open Grammar

/-- There are no templates in a program. -/
theorem Grammar.Items.ne_template {ts : List Token} {nodes : List Node} (h : Items ts nodes) :
    ∀ t ∈ ts, t.kind ≠ .template := by
  intro t ht hkind
  have hknown := h.known t ht
  rw [hkind] at hknown
  cases hknown

/-- The source is a program. -/
def Source.IsProgram (src : Source) : Prop := ∃ p, src.parse = .ok p

theorem Source.isProgram_iff {src : Source} : src.IsProgram ↔ src.check = .ok () := by
  rw [IsProgram, check]
  cases src.parse <;> simp [Except.map]

namespace Session

variable {s t name : String} {us : List Token} {p : Program}

/-- A text is complete if no braces are open after its tokens. -/
theorem isComplete_iff_of_tokenizes (h : Tokenizes .origin s.toList (.ok us)) :
    isComplete s ↔ Token.excess .lbrace .rbrace us ≤ 0 := by
  have htokens : (Source.interactive s).tokens? = _ := Source.tokens?_of_tokenizes h
  rw [isComplete, htokens]
  simp only [Except.map, List.countP_append, decide_eq_true_eq, Token.excess]
  have hend : ∀ kind : Token.Kind, kind ≠ .eof →
      [Token.endOfInput (Source.interactive s).stop].countP (·.kind == kind) = 0 := by
    intro kind hkind
    simpa [Token.endOfInput] using hkind.symm
  rw [hend .lbrace (by decide), hend .rbrace (by decide)]
  omega

/-- A text that has these tokens is a program if they derive. -/
theorem isProgram_iff_of_tokenizes (h : Tokenizes .origin s.toList (.ok us)) :
    (Source.mk name s).IsProgram ↔ ∃ nodes, Items us nodes := by
  constructor
  · rintro ⟨p, hp⟩
    obtain ⟨us', hcut, -, -, hitems⟩ := Source.exists_items_of_parse hp
    obtain rfl := Except.ok.inj (h.unique hcut)
    exact ⟨p.children, hitems⟩
  · rintro ⟨nodes, hitems⟩
    have htokens : (Source.mk name s).tokens? = _ := Source.tokens?_of_tokenizes h
    exact ⟨_, Source.parse_of_items htokens hitems⟩

/-- The beginning of a program up to a line end has tokens, and they are the beginning of those
of the program. -/
theorem exists_lineCut (hs : ∀ c ∈ s.toList.getLast?, c = '\n')
    (h : (Source.mk name (s ++ t)).parse = .ok p) :
    ∃ us vs, Tokenizes .origin s.toList (.ok us) ∧
      Tokenizes (Position.origin.after s.toList) t.toList (.ok vs) ∧ Items (us ++ vs) p.children ∧
      LineCut us vs p.children := by
  obtain ⟨ts, hcut, -, -, hitems⟩ := Source.exists_items_of_parse h
  have hchars : (Source.mk name (s ++ t)).chars = s.toList ++ t.toList := String.toList_append
  rw [hchars] at hcut
  obtain ⟨us, vs, rfl, hus, hvs, hends⟩ := hcut.exists_lineCut hs hitems.ne_template
  exact ⟨us, vs, hus, hvs, hitems, hitems.lineCut hends⟩

/-- All programs are complete. -/
theorem isComplete_of_isProgram (h : (Source.mk name s).IsProgram) : isComplete s := by
  obtain ⟨p, hp⟩ := h
  obtain ⟨us, hcut, -, -, hitems⟩ := Source.exists_items_of_parse hp
  exact (isComplete_iff_of_tokenizes hcut).2 hitems.balanced.braces.le

/-- **What completeness decides** of a text that ends with a line end. The beginning of a program
is a program itself just where it is complete and has as many opening as closing parentheses; it is
complete and no program just where it stops in a parameter list. Every program is complete. -/
theorem isComplete_linePrefix (name s : String) (hs : s.toList.getLast? = some '\n') :
    (∀ t, (Source.mk name (s ++ t)).IsProgram →
      ∃ ts, (Source.mk name s).tokens? = .ok (ts ++ [Token.endOfInput (Source.mk name s).stop]) ∧
        ((Source.mk name s).IsProgram ↔
          isComplete s ∧ ts.countP (·.kind == .lparen) = ts.countP (·.kind == .rparen)) ∧
        (isComplete s ∧ ¬ (Source.mk name s).IsProgram ↔ OpenParams ts)) ∧
    ((Source.mk name s).IsProgram → isComplete s) := by
  refine ⟨fun t ⟨p, hp⟩ => ?_, isComplete_of_isProgram⟩
  have hline : ∀ c ∈ s.toList.getLast?, c = '\n' := by
    rintro c hc
    exact Option.some.inj (hc.symm.trans hs)
  obtain ⟨us, vs, hus, -, -, hcut⟩ := exists_lineCut hline hp
  have hcomplete := isComplete_iff_of_tokenizes hus
  have hprogram : (Source.mk name s).IsProgram ↔ _ := isProgram_iff_of_tokenizes hus
  have htokens : (Source.mk name s).tokens? = _ := Source.tokens?_of_tokenizes hus
  refine ⟨us, htokens, ?_⟩
  have hparens : us.countP (·.kind == .lparen) = us.countP (·.kind == .rparen) ↔
      Token.excess .lparen .rparen us = 0 := by
    rw [Token.excess]
    omega
  rw [hcomplete, hprogram, hparens]
  cases hcut with
  | between _ upper =>
    have hbalanced := upper.balanced
    refine ⟨iff_of_true ⟨_, upper⟩ ⟨hbalanced.braces.le, hbalanced.parens⟩,
      iff_of_false (fun h => h.2 ⟨_, upper⟩) fun hopen => ?_⟩
    have hone := hopen.parens
    rw [hbalanced.parens] at hone
    cases hone
  | inParams hopen =>
    have hno : ¬ ∃ nodes, Items us nodes := by
      rintro ⟨nodes, hitems⟩
      have hone := hopen.parens
      rw [hitems.balanced.parens] at hone
      cases hone
    refine ⟨iff_of_false hno fun h => ?_, iff_of_true ⟨hopen.braces.le, hno⟩ hopen⟩
    have hone := hopen.parens
    rw [h.2] at hone
    cases hone
  | inBraces hopen =>
    have hno : ¬ ∃ nodes, Items us nodes := by
      rintro ⟨nodes, hitems⟩
      exact hopen.ne' hitems.balanced.braces
    refine ⟨iff_of_false hno fun h => hopen.not_ge h.1,
      iff_of_false (fun h => hopen.not_ge h.1) fun h => ?_⟩
    exact hopen.ne' h.braces

/-- A parameter list that goes on in the next line. -/
theorem isComplete_linePrefix_params :
    ∃ ts, (Source.mk "a" "fn f(\n").tokens? = .ok (ts ++ [Token.endOfInput ⟨2, 1, 6⟩]) ∧
      isComplete "fn f(\n" ∧ ¬ (Source.mk "a" "fn f(\n").IsProgram ∧ OpenParams ts := by
  have hgoesOn : (Source.mk "a" ("fn f(\n" ++ "n i32) \x7b\x7d")).IsProgram :=
    Source.isProgram_iff.2 (by decide +kernel)
  have hcheck : (Source.mk "a" "fn f(\n").check ≠ .ok () := by
    have herror : (Source.mk "a" "fn f(\n").check =
        .error (.grammatical ⟨.expected "parameter name" .eof, ⟨2, 1, 6⟩⟩) := by decide +kernel
    rw [herror]
    rintro ⟨⟩
  have hcomplete : isComplete "fn f(\n" = true := by decide +kernel
  have hno := mt Source.isProgram_iff.1 hcheck
  obtain ⟨ts, htokens, -, hopen⟩ :=
    (isComplete_linePrefix "a" "fn f(\n" (by decide)).1 "n i32) \x7b\x7d" hgoesOn
  exact ⟨ts, htokens, hcomplete, hno, hopen.1 ⟨hcomplete, hno⟩⟩

end Session

end Curly
