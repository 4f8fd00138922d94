import Curly.Proofs.Token.Sequence
import Curly.Proofs.Tree.Derivation
import Curly.Proofs.Tree.Image

/-!
# What comes after a token

How much of what a builder does depends on tokens that it has not read. Outside of imports nothing
does (`read_congr`), and a list of tokens is read the same where the same string or colon comes
next after it (`ReadsTo.congr`). A token of a text that is refused is refused whatever comes after
its line (`exists_refusal`), so a run that fails has read all before the token at fault and would
fail at it again (`exists_readsTo`).
-/

namespace Curly

/-! ## The same tree -/

/-- Nothing is changed. -/
def TreeMap.same : TreeMap where
  position := id
  node n := [n]
  node_spacing _ := .inr rfl
  node_newline _ := rfl
  node_comment _ _ := rfl
  node_use _ := rfl
  node_enum d := by rw [EnumDecl.move_id]
  node_fn head body s := by
    rw [List.flatMap_singleton']
    rfl

theorem TreeMap.level_same (outermost : Bool) (ns : List Node) :
    same.level [] outermost ns = ns := by
  rw [level_nil]
  exact List.flatMap_singleton' ns

theorem TreeMap.builder_same (b : Builder) : same.builder [] b = b := by
  have houter : ∀ os, same.outer [] os = os := fun os => by
    induction os with
    | nil => rfl
    | cons o os ih => rw [outer, level_same, ih]; rfl
  have hslot : same.slot b.slot = b.slot := by
    cases b.slot
    case enumValues start name values =>
      exact congrArg (Slot.enumValues start name) (List.map_id values)
    all_goals rfl
  rw [builder, houter, level_same, hslot]

namespace Builder

variable {b b' : Builder} {t : Token} {ts us rest rest' : List Token} {r : Refusal}
  {stop : Position}

/-! ## One token -/

/-- **Outside of imports the tokens ahead do not matter**, and inside only the next string or
colon. -/
theorem follows_congr (h : b.looksAhead → SameAhead ts us) :
    TreeMap.same.Follows [] (b.read t ts) (b.read t us) := by
  have hfollows : TreeMap.same.Follows [] (b.read t ts)
      ((TreeMap.same.builder [] b).read (t.move id) us) := TreeMap.follows_read (fun _ => rfl) h
  rwa [TreeMap.builder_same] at hfollows

theorem read_congr (h : b.looksAhead → SameAhead ts us) (hread : b.read t ts = .ok b') :
    b.read t us = .ok b' := by
  have hfollows := follows_congr (t := t) h
  rw [hread] at hfollows
  generalize b.read t us = out at hfollows ⊢
  cases hfollows with
  | ok => rw [TreeMap.builder_same]

theorem exists_refusal_congr (h : b.looksAhead → SameAhead ts us)
    (hread : b.read t ts = .error r) : ∃ r', b.read t us = .error r' ∧ r'.error = r.error := by
  have hfollows := follows_congr (t := t) h
  rw [hread] at hfollows
  generalize b.read t us = out at hfollows ⊢
  cases hfollows with
  | error same => exact ⟨_, rfl, same⟩

theorem kindAhead?_comment_ne (h : Lined (t :: ts)) (ht : t.kind = .comment)
    {kind : Token.Kind} (hkind : kind = .string ∨ kind = .colon) : kindAhead? ts ≠ some kind := by
  intro hahead
  obtain rfl := kindAhead?_of_comment h ht hahead
  simp at hkind

/-- What is ahead of a comment is the end of its line. -/
theorem sameAhead_of_comment (h : Lined (t :: ts)) (h' : Lined (t :: us)) (ht : t.kind = .comment) :
    SameAhead ts us := fun _ hkind =>
  iff_of_false (kindAhead?_comment_ne h ht hkind) (kindAhead?_comment_ne h' ht hkind)

theorem sameAhead_cons (h : t.kind.isPassable → SameAhead ts us) :
    SameAhead (t :: ts) (t :: us) := by
  intro kind hkind
  cases hpass : t.kind.isPassable
  · rw [kindAhead?_of_not_passable hpass, kindAhead?_of_not_passable hpass]
  · rw [kindAhead?_of_passable hpass, kindAhead?_of_passable hpass]
    exact h hpass kind hkind

theorem sameAhead_append (xs : List Token) (h : SameAhead ts us) :
    SameAhead (xs ++ ts) (xs ++ us) := by
  induction xs with
  | nil => exact h
  | cons x xs ih => exact sameAhead_cons fun _ => ih

theorem kind_of_passable (h : t.kind.isPassable) :
    t.kind = .spacing ∨ t.kind = .comment ∨ t.kind = .eof := by
  cases hkind : t.kind <;> simp_all [Token.Kind.isPassable]

/-- In place of a specifier a token is refused for what it is itself. -/
theorem exists_refusal_specifier {start : Position} (hslot : b.slot = .specifier start)
    (hpass : t.kind.isPassable = false) (h : b.read t ts = .error r) :
    ∃ r', b.read t us = .error r' ∧ r'.error = r.error := by
  have hspacing : t.kind ≠ .spacing := fun ht => by
    rw [ht] at hpass
    cases hpass
  have hstring : t.kind ≠ .string := fun ht => by
    simp only [read, hslot, readSpecifier, ht, if_pos] at h
    split at h <;> cases h
  have hread : ∀ ahead, b.read t ahead = b.refuseFor "string" t ahead := fun ahead => by
    simp [read, hslot, readSpecifier, hspacing, hstring, hpass]
  rw [hread] at h
  refine ⟨_, hread us, ?_⟩
  rw [← Except.error.inj h]

/-- **A token of a text is refused whatever comes after it**, or, if it is a comment, after its
line. -/
theorem exists_refusal (hcolon : b.ColonAhead (t :: ts)) (hlined : Lined (t :: ts))
    (hlined' : Lined (t :: us)) (ht : t.kind ≠ .eof) (h : b.read t ts = .error r) :
    SameAhead (t :: ts) (t :: us) ∧ ∃ r', b.read t us = .error r' ∧ r'.error = r.error := by
  cases hpass : t.kind.isPassable
  · refine ⟨sameAhead_cons fun h => absurd h (by rw [hpass]; exact Bool.false_ne_true), ?_⟩
    cases hslot : b.slot
    case specifier => exact exists_refusal_specifier hslot hpass h
    case includeColon =>
      -- the colon that is known to be ahead is `t`, and is taken
      have hahead := hcolon (by rw [awaitsColon, hslot])
      rw [kindAhead?_of_not_passable hpass, Option.some.injEq] at hahead
      simp [read, hslot, readIncludeColon, hahead] at h
    all_goals exact exists_refusal_congr (fun hlooks => by simp [looksAhead, hslot] at hlooks) h
  · have hcomment : t.kind = .comment := by
      rcases kind_of_passable hpass with hspacing | hcomment | heof
      · rcases read_spacing hspacing hcolon with hread | ⟨-, hread⟩
        · rw [hread] at h
          cases h
        · rw [hread] at h
          cases h
      · exact hcomment
      · exact absurd heof ht
    have hsame := sameAhead_of_comment hlined hlined' hcomment
    exact ⟨sameAhead_cons fun _ => hsame, exists_refusal_congr (fun _ => hsame) h⟩

/-! ## Up to a token -/

/-- `ReadsTo b ts rest b'`: from `b` on, the tokens `ts` with `rest` after them are taken one by
one, and none of them is the end of input. -/
inductive ReadsTo : Builder → List Token → List Token → Builder → Prop
  | nil (b : Builder) (rest : List Token) : ReadsTo b [] rest b
  | cons {b b' b'' : Builder} {t : Token} {ts rest : List Token} (notEof : t.kind ≠ .eof)
    (first : b.read t (ts ++ rest) = .ok b') (later : ReadsTo b' ts rest b'') :
    ReadsTo b (t :: ts) rest b''

theorem ReadsTo.run_eq (h : ReadsTo b ts rest b') :
    run .program stop b (ts ++ rest) = run .program stop b' rest := by
  induction h with
  | nil => rfl
  | cons notEof first _ ih =>
    rw [List.cons_append, run_of_read (reached_program notEof) first, ih]

/-- The same tokens are taken where the same string or colon comes next after them. -/
theorem ReadsTo.congr (h : ReadsTo b ts rest b') (hsame : SameAhead rest rest') :
    ReadsTo b ts rest' b' := by
  induction h with
  | nil => exact .nil _ _
  | cons notEof first _ ih =>
    exact .cons notEof (read_congr (fun _ => sameAhead_append _ hsame) first) (ih hsame)

/-- Of the tokens `ts`, the builder `b` takes those in `before` and becomes `b'`, which refuses
the next one. -/
structure FailsAt (b : Builder) (ts : List Token) (r : Refusal) (before : List Token) (t : Token)
    (after : List Token) (b' : Builder) : Prop where
  split : ts = before ++ t :: after
  reads : ReadsTo b before (t :: after) b'
  refused : b'.read t after = .error r
  lined : Lined (t :: after)
  colon : b'.ColonAhead (t :: after)

/-- **A run that fails has read all tokens before the one at fault.** -/
theorem exists_readsTo (hlined : Lined ts) (hcolon : b.ColonAhead ts)
    (h : run .program stop b ts = .error r) :
    ∃ before t after b', FailsAt b ts r before t after b' := by
  induction ts generalizing b with
  | nil => cases hlined
  | cons t ts ih =>
    rw [run] at h
    split at h
    · cases h
    · split at h
      · next b' hread =>
        by_cases ht : t.kind = .eof
        · rw [hlined.eq_nil_of_eof ht] at hread
          exact absurd hread (read_eof_ne_ok ht)
        · obtain ⟨before, u, after, b'', hfails⟩ :=
            ih (hlined.tail ht) (colonAhead_of_read hread) h
          refine ⟨t :: before, u, after, b'', ?_, .cons ht ?_ hfails.reads, hfails.refused,
            hfails.lined, hfails.colon⟩
          · rw [hfails.split, List.cons_append]
          · rw [← hfails.split]
            exact hread
      · next r' hread =>
        rw [← Except.error.inj h]
        exact ⟨[], t, ts, b, rfl, .nil _ _, hread, hlined, hcolon⟩

/-- The error stands at the token at fault, but for an empty include list. -/
theorem FailsAt.position {before after : List Token} (h : FailsAt b ts r before t after b')
    (hcause : r.error.cause ≠ .emptyIncludes) : r.error.position = t.span.start := by
  have houtcome := outcome_read b' t after
  rw [h.refused] at houtcome
  cases houtcome with
  | refused position => exact position
  | noEntries => exact absurd rfl hcause

/-- **Nothing after the token at fault matters**, but for the line end after a comment. -/
theorem FailsAt.exists_run_error {before after : List Token}
    (h : FailsAt b ts r before t after b') (ht : t.kind ≠ .eof) (hlined : Lined (t :: us)) :
    ∃ r', run .program stop b (before ++ t :: us) = .error r' ∧ r'.error = r.error := by
  obtain ⟨hsame, r', hrefused, herror⟩ := exists_refusal h.colon h.lined hlined ht h.refused
  refine ⟨r', ?_, herror⟩
  rw [(h.reads.congr hsame).run_eq]
  exact run_of_refuse (reached_program ht) hrefused

end Builder

end Curly
