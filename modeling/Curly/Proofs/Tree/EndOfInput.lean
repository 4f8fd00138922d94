import Curly.Proofs.Tree.Lookahead

/-!
# The end of input

Past its last token a list of tokens goes on with ends of input, which a builder is given whenever
it asks for more. So it does not matter whether the list ends with the end of input itself, wherever
the tokens run out (`Source.build_concat_endOfInput`).
-/

namespace Curly

namespace Builder

variable {stop : Position}

/-- An end of input hides nothing that comes next on a line, and is nothing that does. -/
theorem sameAhead_concat_endOfInput (ts : List Token) :
    SameAhead ts (ts ++ [Token.endOfInput stop]) := by
  have hend : SameAhead [] [Token.endOfInput stop] := fun _ _ => by
    rw [kindAhead?_of_passable rfl]
  have hsame := sameAhead_append ts hend
  rwa [List.append_nil] at hsame

/-- **A run comes to the same** with the end of input after its tokens: the same tree, or the same
error. -/
theorem follows_run_concat_endOfInput (goal : Goal) (b : Builder) (ts : List Token) :
    TreeMap.same.Follows [] ((run goal stop b ts).map Prod.fst)
      ((run goal stop b (ts ++ [Token.endOfInput stop])).map Prod.fst) := by
  have hsame : ∀ b : Builder, TreeMap.same.Follows [] (.ok b) (.ok b) := fun b => by
    have hok : TreeMap.same.Follows [] (.ok b) (.ok (TreeMap.same.builder [] b)) := .ok b
    rwa [TreeMap.builder_same] at hok
  induction ts generalizing b with
  | nil =>
    rw [List.nil_append, run, run]
    split
    · exact hsame b
    · cases hread : b.read (Token.endOfInput stop) [] with
      | ok b' => exact absurd hread (read_eof_ne_ok rfl)
      | error r => exact .error rfl
  | cons t ts ih =>
    rw [List.cons_append, run, run]
    split
    · exact hsame b
    · have hfollows : TreeMap.same.Follows [] (b.read t ts)
          (b.read t (ts ++ [Token.endOfInput stop])) :=
        follows_congr fun _ => sameAhead_concat_endOfInput ts
      generalize b.read t ts = x at hfollows ⊢
      generalize b.read t (ts ++ [Token.endOfInput stop]) = y at hfollows ⊢
      cases hfollows with
      | ok b' =>
        rw [TreeMap.builder_same]
        exact ih b'
      | error same => exact .error same

end Builder

namespace Source

/-- **The end of input after the tokens says nothing new**, whatever the tokens are. -/
theorem build_concat_endOfInput (src : Source) (ts : List Token) :
    src.build (ts ++ [Token.endOfInput src.stop]) = src.build ts := by
  have hfollows : TreeMap.same.Follows []
      ((Builder.run .program src.stop .empty ts).map Prod.fst)
      ((Builder.run .program src.stop .empty (ts ++ [Token.endOfInput src.stop])).map Prod.fst) :=
    Builder.follows_run_concat_endOfInput .program .empty ts
  rw [build_eq, build_eq]
  generalize (Builder.run .program src.stop .empty ts).map Prod.fst = x at hfollows ⊢
  generalize (Builder.run .program src.stop .empty _).map Prod.fst = y at hfollows ⊢
  cases hfollows with
  | ok b => rw [TreeMap.builder_same]
  | error same => exact congrArg Except.error same

/-- **The end of input that the tokens of a text end with is redundant.** Without it they make the
same tree, or fail with the same error, and so do any other tokens with and without it. -/
theorem build_endOfInput (src : Source) :
    (∀ all, src.tokens? = .ok all → ∃ ts, all = ts ++ [Token.endOfInput src.stop] ∧
      (∀ t ∈ ts, t.kind ≠ .eof) ∧ src.build ts = src.build all) ∧
    ∀ ts, src.build ts = src.build (ts ++ [Token.endOfInput src.stop]) := by
  refine ⟨fun all h => ?_, fun ts => (src.build_concat_endOfInput ts).symm⟩
  obtain ⟨ts, rfl, hcut⟩ := exists_of_tokens? h
  exact ⟨ts, rfl, fun t ht => (hcut.isSpelled t ht).ne_eof, (src.build_concat_endOfInput ts).symm⟩

end Source

end Curly
