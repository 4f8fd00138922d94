import Curly.Proofs.Token.Seam

/-!
# Cutting texts at line ends

Only templates go over the end of a line. A text without them is cut into tokens line by line:
what comes before a line end has the first of the tokens, and what comes after it has the others
(`Tokenizes.exists_lineCut`).
-/

namespace Curly

variable {p : Position} {lexeme front back : List Char} {t : Token} {ts us vs : List Token}
  {kind : Token.Kind}

/-- The tokens are none, or end with a line end. -/
def EndsLine (ts : List Token) : Prop := ∀ t ∈ ts.getLast?, t.kind = .newline

@[simp] theorem endsLine_nil : EndsLine [] := nofun

@[simp] theorem endsLine_singleton : EndsLine [t] ↔ t.kind = .newline := by simp [EndsLine]

theorem EndsLine.of_append (h : EndsLine (ts ++ us)) : EndsLine us := by
  intro t ht
  refine h t ?_
  rw [List.getLast?_append, Option.mem_def.1 ht]
  rfl

theorem EndsLine.cons (h : EndsLine ts) (hts : ts ≠ []) : EndsLine (t :: ts) := by
  intro u hu
  rw [List.getLast?_cons, List.getLast?_eq_some_getLast hts] at hu
  exact h u (by rw [List.getLast?_eq_some_getLast hts]; exact hu)

/-- **No lexeme but a template goes over a line end.** -/
theorem Lexeme.newline_of_mem (h : Lexeme lexeme (.ok kind)) (hmem : '\n' ∈ lexeme)
    (htemplate : kind ≠ .template) :
    (lexeme = ['\n'] ∨ lexeme = ['\r', '\n']) ∧ kind = .newline := by
  cases h with
  | fixed listed =>
    have all : ∀ x ∈ fixedLexemes, '\n' ∈ x.1 →
        (x.1 = ['\n'] ∨ x.1 = ['\r', '\n']) ∧ x.2 = .newline := by decide
    exact all _ listed hmem
  | comment oneLine =>
    rcases List.mem_cons.1 hmem with hc | hc
    · cases hc
    · exact absurd hc oneLine
  | string inside =>
    rcases List.mem_cons.1 hmem with hc | hc
    · cases hc
    · rcases List.mem_append.1 hc with hc | hc
      · exact absurd rfl (inside _ hc).2.2
      · cases List.mem_singleton.1 hc
  | template => exact absurd rfl htemplate
  | word isWord => exact absurd (isWord.forall_mem _ hmem) (by decide)
  | integer isRun | float isRun => exact absurd (isRun.forall_mem _ hmem) (by decide)

/-- A lexeme that a line end comes in ends there. -/
theorem Lexeme.eq_of_lineEnd (h : Lexeme (front ++ back) (.ok kind)) (hne : front ≠ [])
    (hfront : ∀ c ∈ front.getLast?, c = '\n') (htemplate : kind ≠ .template) :
    back = [] ∧ kind = .newline := by
  have hlast : front.getLast hne = '\n' :=
    hfront _ (by rw [List.getLast?_eq_some_getLast hne]; rfl)
  obtain ⟨before, rfl⟩ : ∃ before, front = before ++ ['\n'] :=
    ⟨_, by rw [← hlast, List.dropLast_append_getLast]⟩
  obtain ⟨hlexeme, hkind⟩ := h.newline_of_mem (by simp) htemplate
  refine ⟨?_, hkind⟩
  rcases hlexeme with hlexeme | hlexeme
  · have hlength := congrArg List.length hlexeme
    simp only [List.length_append, List.length_cons, List.length_nil] at hlength
    exact List.length_eq_zero_iff.1 (by omega)
  · rcases before with _ | ⟨c, before⟩
    · cases hlexeme
    · have hlength := congrArg List.length hlexeme
      simp only [List.length_append, List.length_cons, List.length_nil] at hlength
      exact List.length_eq_zero_iff.1 (by omega)

/-- A lexeme that is all of a text is the one token of the text. -/
theorem Longest.tokenizes (h : Longest lexeme lexeme (.ok kind)) (p : Position) :
    Tokenizes p lexeme (.ok [.ofLexeme p kind lexeme]) := by
  have hreads : Reads p (lexeme ++ []) (.ok (.ofLexeme p kind lexeme)) lexeme := by
    rw [List.append_nil]
    exact .token h
  have hcut := Tokenizes.token hreads (.done _)
  rwa [List.append_nil] at hcut

/-- **A text without templates is cut into tokens line by line.** -/
theorem Tokenizes.exists_lineCut (h : Tokenizes p (front ++ back) (.ok ts))
    (hfront : ∀ c ∈ front.getLast?, c = '\n') (htemplate : ∀ t ∈ ts, t.kind ≠ .template) :
    ∃ us vs, ts = us ++ vs ∧ Tokenizes p front (.ok us) ∧
      Tokenizes (p.after front) back (.ok vs) ∧ EndsLine us := by
  induction ts generalizing p front with
  | nil =>
    obtain ⟨rfl, rfl⟩ := List.append_eq_nil_iff.1 h.text_eq_nil
    exact ⟨[], [], rfl, .done p, .done p, endsLine_nil⟩
  | cons t ts ih =>
    by_cases hne : front = []
    · subst hne
      exact ⟨[], t :: ts, rfl, .done p, h, endsLine_nil⟩
    obtain ⟨lexeme, rest, htext, reads, later⟩ := h.exists_cons
    obtain ⟨ht, hts'⟩ := List.forall_mem_cons.1 htemplate
    cases reads with
    | @token _ kind isLongest =>
      rcases List.append_eq_append_iff.1 htext with ⟨c, rfl, rfl⟩ | ⟨c, rfl, rfl⟩
      · -- The line end comes in the first token, and is its end.
        obtain ⟨rfl, hkind⟩ := isLongest.isLexeme.eq_of_lineEnd hne hfront ht
        rw [List.append_nil] at isLongest later ⊢
        exact ⟨[_], ts, rfl, (isLongest.of_append List.prefix_rfl).tokenizes p, later,
          endsLine_singleton.2 hkind⟩
      · -- It comes after the first token, unless that ends with it.
        have hc : ∀ d ∈ c.getLast?, d = '\n' := by
          intro d hd
          refine hfront d ?_
          rw [List.getLast?_append, Option.mem_def.1 hd]
          rfl
        obtain ⟨us, vs, rfl, hus, hvs, hends⟩ := ih later hc hts'
        rw [← List.append_assoc] at isLongest
        have hcut := Tokenizes.token
          (.token (p := p) (isLongest.of_append (List.prefix_append _ _))) hus
        refine ⟨_ :: us, vs, rfl, hcut, by rwa [Position.after_append], ?_⟩
        by_cases husne : us = []
        · subst husne
          obtain rfl := hus.text_eq_nil
          rw [List.append_nil] at hfront hne
          have hlexeme := isLongest.isLexeme
          rw [← List.append_nil lexeme] at hlexeme
          exact endsLine_singleton.2 (hlexeme.eq_of_lineEnd hne hfront ht).2
        · exact hends.cons husne

end Curly
