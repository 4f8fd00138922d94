import Curly.Program
import Curly.Proofs.Tree.Derivation

/-!
# Programs

A source is a program just where its tokens derive from the grammar, and its tree is the one that
is derived (`Source.parse_eq_ok_iff`).
-/

namespace Curly

open Grammar

/-- Tokens that derive are built into the nodes that they derive. -/
theorem Builder.run_program {stop : Position} {ts : List Token} {nodes : List Node}
    (h : Items ts nodes) :
    Builder.run .program stop .empty (ts ++ [Token.endOfInput stop]) =
      .ok (⟨[], nodes.reverse, .item⟩, [Token.endOfInput stop]) := by
  have hahead : Builder.kindAhead? [Token.endOfInput stop] ≠ some .colon := by
    rw [Builder.kindAhead?_of_passable rfl]
    exact nofun
  have hreached : Builder.reached .program ⟨[], nodes.reverse ++ [], .item⟩
      (Token.endOfInput stop) = true := rfl
  rw [Builder.empty, Builder.run_items h hahead, Builder.run, if_pos hreached, List.append_nil]

/-- The tokens before the end of input derive, if all tokens are built into a tree. -/
theorem Builder.items_of_run {stop : Position} {ts : List Token} {r : Builder × List Token}
    (hts : ∀ t ∈ ts, t.kind ≠ .eof) (hlined : Lined (ts ++ [Token.endOfInput stop]))
    (h : Builder.run .program stop .empty (ts ++ [Token.endOfInput stop]) = .ok r) :
    Items ts r.1.done.reverse := by
  have hcontinues := Builder.continues_of_run hlined h
  generalize hall : ts ++ [Token.endOfInput stop] = all at hcontinues
  cases hcontinues with
  | @program _ nodes body later t items isEof result =>
    have hlater : later = [] := by
      rcases List.eq_nil_or_concat later with rfl | ⟨later, u, rfl⟩
      · rfl
      · have hsplit : ts = body ++ t :: later := by
          rw [List.concat_eq_append, ← List.cons_append, ← List.append_assoc] at hall
          exact (List.append_inj' hall rfl).1
        exact absurd isEof (hts t (by rw [hsplit]; simp))
    subst hlater
    obtain ⟨rfl, -⟩ := List.append_inj' hall rfl
    rw [result]
    simpa using items

namespace Source

variable {src : Source} {ts : List Token}

theorem parse_of_tokens? (h : src.tokens? = .ok ts) :
    src.parse = (src.build ts).mapError .grammatical := by
  rw [parse, h]
  dsimp only
  cases src.build ts <;> rfl

theorem parse_eq_of_tokens? (h : src.tokens? = .ok ts) (p : Program) :
    src.parse = .ok p ↔ ∃ r, Builder.run .program src.stop .empty ts = .ok r ∧
      p = ⟨src.name, r.1.done.reverse⟩ := by
  rw [parse, h]
  simp only [build, Builder.program]
  cases Builder.run .program src.stop .empty ts with
  | error r => simp [Except.map]
  | ok r => simp [Except.map, eq_comm]

theorem parse_eq_error_of_tokens? (h : src.tokens? = .ok ts) (e : GrammarError) :
    src.parse = .error (.grammatical e) ↔ ∃ r, Builder.run .program src.stop .empty ts = .error r ∧
      r.error = e := by
  rw [parse, h]
  simp only [build, Builder.program]
  cases Builder.run .program src.stop .empty ts with
  | error r => simp [Except.map]
  | ok r => simp [Except.map]

/-- The tokens of a program derive its nodes. -/
theorem exists_items_of_parse {p : Program} (h : src.parse = .ok p) :
    ∃ ts, Tokenizes Position.origin src.chars (.ok ts) ∧
      src.tokens? = .ok (ts ++ [Token.endOfInput src.stop]) ∧
      p.source = src.name ∧ Items ts p.children := by
  cases htokens : src.tokens? with
  | error e =>
    rw [parse, htokens] at h
    cases h
  | ok all =>
    obtain ⟨ts, rfl, hcut⟩ := exists_of_tokens? htokens
    obtain ⟨r, hrun, rfl⟩ := (parse_eq_of_tokens? htokens p).1 h
    refine ⟨ts, hcut, rfl, rfl, ?_⟩
    exact Builder.items_of_run (fun t ht => (hcut.isSpelled t ht).ne_eof) (hcut.lined rfl) hrun

theorem parse_of_items {nodes : List Node}
    (htokens : src.tokens? = .ok (ts ++ [Token.endOfInput src.stop])) (h : Items ts nodes) :
    src.parse = .ok ⟨src.name, nodes⟩ := by
  rw [parse_eq_of_tokens? htokens]
  refine ⟨_, Builder.run_program h, ?_⟩
  rw [List.reverse_reverse]

/-- **A source is a program just where its tokens derive from the grammar**, and its nodes are the
ones that they derive. -/
theorem parse_eq_ok_iff (src : Source) (p : Program) :
    src.parse = .ok p ↔ ∃ ts, src.tokens? = .ok (ts ++ [Token.endOfInput src.stop]) ∧
      p.source = src.name ∧ Items ts p.children := by
  constructor
  · intro h
    obtain ⟨ts, -, htokens, hname, hitems⟩ := exists_items_of_parse h
    exact ⟨ts, htokens, hname, hitems⟩
  · rintro ⟨ts, htokens, hname, hitems⟩
    rw [parse_of_items htokens hitems, ← hname]

end Source

end Curly
