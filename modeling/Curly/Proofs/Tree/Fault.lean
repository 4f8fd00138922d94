import Curly.Proofs.Tree.Completion

/-!
# Where errors stand

An error stands at the start of a token: the one that is refused or, if an include list has no
entries, the brace that has opened it. Since a builder that has taken a comment takes the line end
after it, no error stands at such a line end (`Builder.exists_position`).
-/

namespace Curly

variable {ts us : List Token} {t u : Token}

/-- One of the tokens `ts`, but not the end of a line with a comment. -/
def OffComment (ts : List Token) (t : Token) : Prop :=
  ∃ before after, ts = before ++ t :: after ∧
    (t.kind = .newline → ∀ u ∈ before.getLast?, u.kind ≠ .comment)

theorem OffComment.eq_or_tail (h : OffComment (u :: ts) t) : t = u ∨ OffComment ts t := by
  obtain ⟨before, after, hsplit, hnewline⟩ := h
  rcases before with _ | ⟨v, before⟩
  · exact .inl (List.cons.inj hsplit).1.symm
  · refine .inr ⟨before, after, (List.cons.inj hsplit).2, fun ht w hw => hnewline ht w ?_⟩
    rw [List.getLast?_cons, Option.mem_def.1 hw]
    rfl

/-- A comment and the end of its line do not both count. -/
theorem OffComment.eq_or_drop {v : Token} (h : OffComment (u :: v :: ts) t)
    (hu : u.kind = .comment) (hv : v.kind = .newline) : t = u ∨ OffComment ts t := by
  obtain ⟨before, after, hsplit, hnewline⟩ := h
  rcases before with _ | ⟨u', _ | ⟨v', before⟩⟩
  · exact .inl (List.cons.inj hsplit).1.symm
  · obtain ⟨rfl, rfl, -⟩ : u = u' ∧ v = t ∧ ts = after := by simpa using hsplit
    exact absurd hu (hnewline hv u rfl)
  · obtain ⟨rfl, rfl, rfl⟩ : u = u' ∧ v = v' ∧ ts = before ++ t :: after := by simpa using hsplit
    refine .inr ⟨before, after, rfl, fun ht w hw => hnewline ht w ?_⟩
    rw [List.getLast?_cons, List.getLast?_cons, Option.mem_def.1 hw]
    rfl

namespace Builder

variable {b b' : Builder} {before ahead after : List Token} {place stop : Position} {r : Refusal}

/-! ## Include lists -/

/-- Where the include list was opened that is being read. -/
def opened? (b : Builder) : Option Position :=
  match b.slot with
  | .includes _ _ opened _ => some opened
  | _ => none

/-- Only a brace opens an include list. -/
theorem opened?_of_read (h : b.read t ahead = .ok b') (hplace : b'.opened? = some place) :
    b.opened? = some place ∨ t.kind = .lbrace ∧ t.span.start = place := by
  cases hslot : b.slot
  case includeOpen start specifier =>
    simp only [read, hslot, readIncludeOpen] at h
    split at h
    · obtain rfl := Except.ok.inj h
      exact .inl hplace
    · obtain rfl := Except.ok.inj h
      exact .inr ⟨‹_›, Option.some.inj hplace⟩
    · exact absurd h refuseFor_ne_ok
  case includes start specifier opened entries =>
    left
    rw [opened?, hslot]
    simp only [read, hslot] at h
    by_cases ht : t.kind.isTrivia ∨ t.kind = .comma
    · obtain rfl : b = b' := by simpa [readIncludes, ht] using h
      rwa [opened?, hslot] at hplace
    · obtain ⟨-, hclose⟩ | ⟨-, entries', -, rfl⟩ := readIncludes_ok ht h
      · unfold closeIncludes at hclose
        split at hclose
        · cases hclose
        all_goals
          obtain rfl := Except.ok.inj hclose
          cases hplace
      · exact hplace
  all_goals
    simp only [read, hslot, readItem, readSpecifier, readIncludeColon, readEnumName, readEnumOpen,
      readEnumValues, readFnName, readFnOpen, readParams, readParamType, readReturns, readBody] at h
    repeat' split at h
    all_goals cases h
  all_goals first | exact .inl hplace | cases hplace

/-- The include list that is being read was opened by one of the tokens, or before them. -/
theorem ReadsTo.opened? (h : ReadsTo b ts us b') (hplace : b'.opened? = some place) :
    b.opened? = some place ∨
      ∃ before u after, ts = before ++ u :: after ∧ u.kind = .lbrace ∧ u.span.start = place := by
  induction h with
  | nil => exact .inl hplace
  | @cons b b' b'' t ts us notEof first later ih =>
    obtain hb' | ⟨before, u, after, rfl, hu, hstart⟩ := ih hplace
    · obtain hb | ⟨ht, hstart⟩ := opened?_of_read first hb'
      · exact .inl hb
      · exact .inr ⟨[], t, ts, rfl, ht, hstart⟩
    · exact .inr ⟨t :: before, u, after, rfl, hu, hstart⟩

/-! ## Errors -/

theorem exists_read_newline (h : takesLineEnd b.slot) (ht : t.kind = .newline) :
    ∃ b', b.read t ahead = .ok b' := by
  cases hslot : b.slot <;> simp only [takesLineEnd, hslot, Bool.false_eq_true] at h <;>
    simp [read, hslot, readItem, readIncludes, readEnumValues, readParams, ht, Token.Kind.isTrivia]

/-- A line end that is refused does not come after a comment. -/
theorem FailsAt.offComment (h : FailsAt b ts r before t after b') (hlined : Lined ts) :
    OffComment ts t := by
  refine ⟨before, after, h.split, fun ht u hu hcomment => ?_⟩
  have htakes := h.reads.takes (h.split ▸ hlined)
  have hslot := htakes.takesLineEnd ⟨u, hu, hcomment⟩
  obtain ⟨b'', hread⟩ : ∃ b'', b'.read t after = .ok b'' := exists_read_newline hslot ht
  rw [h.refused] at hread
  cases hread

/-- **An error stands at the start of a token**, and of none that ends a line with a comment. -/
theorem exists_position (hlined : Lined ts) (h : run .program stop .empty ts = .error r) :
    ∃ t, OffComment ts t ∧ r.error.position = t.span.start := by
  obtain ⟨before, t, after, b, hfails⟩ :=
    exists_readsTo hlined (colonAhead_of_not_awaitsColon rfl) h
  have houtcome := outcome_read b t after
  rw [hfails.refused] at houtcome
  cases houtcome with
  | refused position => exact ⟨t, hfails.offComment hlined, position⟩
  | @noEntries start opened specifier _ isOpen =>
    have hplace : b.opened? = some opened := by rw [opened?, isOpen]
    obtain hempty | ⟨front, u, back, hsplit, hu, hstart⟩ := hfails.reads.opened? hplace
    · cases hempty
    · refine ⟨u, ⟨front, back ++ t :: after, ?_, ?_⟩, hstart.symm⟩
      · rw [hfails.split, hsplit]
        simp
      · intro hnewline
        rw [hu] at hnewline
        cases hnewline

end Builder

end Curly
