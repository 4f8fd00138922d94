import Curly.Proofs.Token.Contiguous
import Curly.Proofs.Token.Joined
import Curly.Proofs.Tree.Completion
import Curly.Proofs.Tree.Parsing

/-!
# Errors stand where no program was possible any more

The token at which a text is refused is the first one that no program can go on with. What is
before it starts a program, which some text completes (`Source.exists_program`), and any text whose
tokens go up to it and whose line then ends has the same error (`Source.exists_firstFault`). Only
an empty include list is reported elsewhere, at the brace that opens it.
-/

namespace Curly

open Piece

variable {src : Source} {ts us : List Token} {t : Token} {r : Refusal} {b : Builder}
  {front : List Char}

/-! ## What has been taken -/

/-- What completes a text that has been taken is not read with it. -/
theorem tokenizes_completion (hcut : Tokenizes .origin front (.ok ts))
    (h : Builder.empty.Takes ts b) :
    Tokenizes .origin (front ++ spell b.completion)
      (.ok (ts ++ place (Position.origin.after front) b.completion)) := by
  obtain ⟨c, hc, hseals⟩ : ∃ c, b.separator.lexeme = [c] ∧
      Seals c (∃ t ∈ ts.getLast?, t.kind = .comment) := by
    unfold Builder.separator
    split
    · exact ⟨'\n', rfl, .inl rfl⟩
    · next hblank => exact ⟨' ', rfl, .inr ⟨rfl, fun hlast => hblank (h.takesLineEnd hlast)⟩⟩
  have hspell : spell b.completion = c :: spell b.completion.tail := by
    rw [Builder.completion, spell_cons, hc]
    rfl
  have hmore := tokenizes_of_stand b.stand_completion (Position.origin.after front)
  rw [hspell] at hmore ⊢
  exact hcut.append hseals hmore

/-- **What has been taken starts a program.** -/
theorem Source.exists_program (name : String) (hcut : Tokenizes .origin front (.ok ts))
    (h : Builder.empty.Takes ts b) :
    ∃ more p, (⟨name, String.ofList front ++ more⟩ : Source).parse = .ok p := by
  obtain ⟨b', htakes, hslot, houter⟩ := b.reaches_completion (Position.origin.after front)
  have hidle : b'.isIdle := by simp [Builder.isIdle, hslot, houter]
  obtain ⟨whole, hwhole⟩ : ∃ whole : Source,
      whole = ⟨name, String.ofList front ++ String.ofList (spell b.completion)⟩ := ⟨_, rfl⟩
  have hchars : whole.chars = front ++ spell b.completion := by simp [hwhole, Source.chars]
  have htokens := Source.tokens?_of_tokenizes (hchars ▸ tokenizes_completion hcut h)
  refine ⟨String.ofList (spell b.completion), ⟨name, b'.done.reverse⟩, ?_⟩
  rw [← hwhole, Source.parse_eq_of_tokens? htokens]
  exact ⟨_, Builder.run_of_takes (h.append htakes) hidle, by rw [hwhole]⟩

/-! ## Where a text is refused -/

namespace Source

/-- The error `e` of a text stands at its token `t` for a reason. -/
structure FirstFault (src : Source) (e : GrammarError) (t : Token) : Prop where
  /-- What is before the token starts a program. -/
  viable : ∃ before, src.slice? ⟨.origin, e.span.start⟩ = some before ∧
    ∃ more p, (⟨src.name, before ++ more⟩ : Source).parse = .ok p
  /-- Whatever comes after the token and a line end, the error is the same. -/
  final : t.kind ≠ .eof → ∃ upTo, src.slice? ⟨.origin, t.span.stop⟩ = some upTo ∧
    ∀ more us, (⟨src.name, upTo ++ "\n" ++ more⟩ : Source).tokens? = .ok us →
      (⟨src.name, upTo ++ "\n" ++ more⟩ : Source).parse = .error (.grammatical e)

/-- The tokens of a text that stay when the line ends after them. -/
theorem exists_tokens_below {name more : String} (hcut : Tokenizes .origin front (.ok ts))
    (h : (⟨name, String.ofList front ++ "\n" ++ more⟩ : Source).tokens? = .ok us) :
    ∃ later, us = ts ++ later ∧ Lined us := by
  obtain ⟨vs, hvs, hcut'⟩ := exists_of_tokens? h
  have hlined : Lined us := hvs ▸ hcut'.lined rfl
  have hupper : Tokenizes .origin (⟨name, String.ofList front⟩ : Source).chars (.ok ts) := by
    rwa [chars, String.toList_ofList]
  obtain ⟨out, hlower⟩ := exists_tokenizes ⟨name, more⟩
  have hjoin := tokens?_join name hupper hlower
  simp only [join] at hjoin
  rw [h] at hjoin
  cases out with
  | error e => cases hjoin
  | ok vs => exact ⟨_, Except.ok.inj hjoin, hlined⟩

/-- What is before a token, and what goes up to its end, the end of input among the tokens. -/
theorem exists_front {before after : List Token} (hcut : Tokenizes .origin src.chars (.ok ts))
    (h : ts ++ [Token.endOfInput src.stop] = before ++ t :: after) :
    ∃ front back, src.chars = front ++ back ∧ Tokenizes .origin front (.ok before) ∧
      t.span.start = Position.origin.after front ∧ (t.kind = .eof ↔ back = []) ∧
      (t.kind ≠ .eof → ∃ lexeme rest, back = lexeme ++ rest ∧
        t.span.stop = Position.origin.after (front ++ lexeme) ∧
        Tokenizes .origin (front ++ lexeme) (.ok (before ++ [t]))) := by
  rcases List.eq_nil_or_concat after with rfl | ⟨after, u, rfl⟩
  · obtain ⟨rfl, ht⟩ := List.append_inj' h rfl
    obtain rfl := List.singleton_inj.1 ht
    exact ⟨src.chars, [], (List.append_nil _).symm, hcut, rfl, iff_of_true rfl rfl,
      fun hne => absurd rfl hne⟩
  · rw [List.concat_eq_append, ← List.cons_append, ← List.append_assoc] at h
    obtain ⟨rfl, -⟩ := List.append_inj' h rfl
    obtain ⟨front, lexeme, rest, hsplit, hne, hspan, hfront, hupTo⟩ := hcut.exists_token
    refine ⟨front, lexeme ++ rest, hsplit, hfront, by rw [hspan], ?_, fun _ =>
      ⟨lexeme, rest, rfl, by rw [hspan], hupTo⟩⟩
    exact iff_of_false (hcut.isSpelled t (by simp)).ne_eof (List.append_ne_nil_of_left_ne_nil hne _)

/-- Only one token begins at its byte. -/
theorem mem_iff_of_start {before after : List Token} (hcut : Tokenizes .origin src.chars (.ok ts))
    (h : ts ++ [Token.endOfInput src.stop] = before ++ t :: after) (u : Token) :
    u ∈ ts ++ [Token.endOfInput src.stop] ∧ u.span.start.offset = t.span.start.offset ↔ u = t := by
  have hpairs : (ts ++ [Token.endOfInput src.stop]).Pairwise fun t u =>
      t.span.start.offset < u.span.start.offset := hcut.pairwise_start.2
  rw [h, List.pairwise_append, List.pairwise_cons] at hpairs
  obtain ⟨-, ⟨hafter, -⟩, hbefore⟩ := hpairs
  rw [h, List.mem_append, List.mem_cons]
  constructor
  · rintro ⟨hu | rfl | hu, hstart⟩
    · exact absurd hstart (hbefore u hu t List.mem_cons_self).ne
    · rfl
    · exact absurd hstart (hafter u hu).ne'
  · rintro rfl
    exact ⟨.inr (.inl rfl), rfl⟩

/-- **No text goes on from the token at fault to a program.** -/
theorem parse_below {all before after : List Token} {name more : String}
    (h : Builder.FailsAt .empty all r before t after b) (ht : t.kind ≠ .eof)
    (hcut : Tokenizes .origin front (.ok (before ++ [t])))
    (htokens : (⟨name, String.ofList front ++ "\n" ++ more⟩ : Source).tokens? = .ok us) :
    (⟨name, String.ofList front ++ "\n" ++ more⟩ : Source).parse =
      .error (.grammatical r.error) := by
  obtain ⟨later, rfl, hlined⟩ := exists_tokens_below hcut htokens
  rw [List.append_assoc, List.singleton_append] at htokens hlined
  rw [parse_eq_error_of_tokens? htokens]
  exact h.exists_run_error ht (hlined.of_append (List.cons_ne_nil t later))

/-- **The token at fault is the first one at which no program was possible any more.** -/
theorem exists_firstFault (src : Source) (e : GrammarError)
    (h : src.parse = .error (.grammatical e)) (hcause : e.cause ≠ .emptyIncludes) :
    ∃ ts t, src.tokens? = .ok ts ∧
      (∀ u, u ∈ ts ∧ u.span.start.offset = e.span.start.offset ↔ u = t) ∧
      (t.kind = .eof ↔ e.span.start.offset = src.byteLength) ∧ src.FirstFault e t := by
  cases htokens : src.tokens? with
  | error e' =>
    rw [parse, htokens] at h
    cases h
  | ok all =>
    obtain ⟨ts, rfl, hcut⟩ := exists_of_tokens? htokens
    obtain ⟨r, hrun, rfl⟩ := (parse_eq_error_of_tokens? htokens e).1 h
    have hlined := hcut.lined (show (Token.endOfInput src.stop).kind = .eof from rfl)
    obtain ⟨before, t, after, b, hfails⟩ := Builder.exists_readsTo hlined
      (Builder.colonAhead_of_not_awaitsColon rfl) hrun
    have htakes := hfails.reads.takes (hfails.split ▸ hlined)
    obtain ⟨front, back, hsplit, hfront, hstart, heof, hupTo⟩ := exists_front hcut hfails.split
    have hspan : r.error.span.start = t.span.start := hfails.position hcause
    refine ⟨_, t, rfl, ?_, ?_, ?_, fun ht => ?_⟩
    · rw [hspan]
      exact mem_iff_of_start hcut hfails.split
    · rw [hspan, hstart, heof, offset_eq_byteLength_iff hsplit]
    · rw [hspan, hstart]
      exact ⟨_, slice?_front hsplit, exists_program src.name hfront htakes⟩
    · obtain ⟨lexeme, rest, rfl, hstop, hcut'⟩ := hupTo ht
      rw [← List.append_assoc] at hsplit
      rw [hstop]
      exact ⟨_, slice?_front hsplit, fun _ _ htokens => parse_below hfails ht hcut' htokens⟩

/-- A wildcard beside a name, in a list in a body. -/
theorem exists_firstFault_wildcard :
    ∃ ts t, (⟨"a", "fn f() \x7buse 'a': \x7bb, *\x7d\x7d"⟩ : Source).tokens? = .ok ts ∧
      (∀ u, u ∈ ts ∧ u.span.start.offset = 21 ↔ u = t) ∧ (t.kind = .eof ↔ 21 = 24) ∧
      (⟨"a", "fn f() \x7buse 'a': \x7bb, *\x7d\x7d"⟩ : Source).FirstFault
        ⟨.mixedWildcard, ⟨1, 22, 21⟩⟩ t :=
  exists_firstFault _ ⟨.mixedWildcard, ⟨1, 22, 21⟩⟩ (by decide +kernel)
    GrammarError.Cause.noConfusion

end Source

end Curly
