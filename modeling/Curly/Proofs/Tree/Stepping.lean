import Curly.Proofs.Tree.Reading
import Curly.Tree.Cursor
import Mathlib.Data.List.TakeWhile

/-!
# What a cursor steps over

A builder takes tokens one by one, a cursor steps over many at once. They agree on which tokens do
not matter: what a cursor skips a builder takes without a change (`Cursor.run_skip`), and the token
that a cursor finds ahead is the one that the builder of an import waits for (`Cursor.run_string`,
`Cursor.run_colon`). A bracket is consumed where a builder takes it (`Cursor.read_opening`), and a
declaration that is closed spans what the cursor has come past since its start
(`Cursor.span_of_read`).
-/

namespace Curly

/-- The kinds of tokens that change nothing in a slot. -/
def Slot.passes : Slot → Token.Kind → Bool
  | .item, _ | .includeColon .., _ => false
  | .includes .., k => k.isTrivia || k == .comma
  | .enumValues .., k | .params .., k => k.isTrivia
  | _, k => k == .spacing

/-- The kind of bracket that has to come in a slot, and the slot after one at this place. -/
def Slot.opening? : Slot → Option (Token.Kind × (Position → Slot))
  | .includeOpen start name => some (.lbrace, fun opened => .includes start name opened (.names []))
  | .enumOpen start name => some (.lbrace, fun _ => .enumValues start name [])
  | .fnOpen start name => some (.lparen, fun _ => .params start name [])
  | _ => none

/-- Where the declaration begins that is open in a slot. -/
def Slot.start? : Slot → Option Position
  | .item => none
  | .specifier start | .includeColon start _ | .includeOpen start _ | .includes start _ _ _
  | .enumName start | .enumOpen start _ | .enumValues start _ _ | .fnName start | .fnOpen start _
  | .params start _ _ | .paramType start _ _ _ | .returns start _ _ | .body start _ => some start

namespace Builder

variable {b b' : Builder} {t : Token} {gap ahead : List Token} {goal : Goal} {stop : Position}
  {kind : Token.Kind}

/-- Where the innermost declaration begins that is open. -/
def start? (b : Builder) : Option Position :=
  b.slot.start?.or (b.outer.head?.map OpenFn.start)

theorem read_of_passes (h : b.slot.passes t.kind) (ahead : List Token) :
    b.read t ahead = .ok b := by
  cases hslot : b.slot
  all_goals
    rw [hslot] at h
    simp only [Slot.passes, beq_iff_eq, Bool.or_eq_true, Bool.false_eq_true] at h
  case includes => simp [read, hslot, readIncludes, h]
  case enumValues | params =>
    simp only [read, hslot, readEnumValues, readParams]
    cases hkind : t.kind <;> rw [hkind] at h <;> first | rfl | cases h
  all_goals
    simp [read, hslot, readSpecifier, readIncludeOpen, readEnumName, readEnumOpen, readFnName,
      readFnOpen, readParamType, readReturns, readBody, h]

theorem read_opening {next : Position → Slot} (hslot : b.slot.opening? = some (kind, next))
    (hspacing : t.kind ≠ .spacing) (ahead : List Token) : b.read t ahead =
      if t.kind = kind then .ok (b.await (next t.span.start))
      else b.refuseFor kind.describe t ahead := by
  cases hb : b.slot
  case includeOpen | enumOpen | fnOpen =>
    rw [hb] at hslot
    obtain ⟨rfl, rfl⟩ := Prod.mk.inj (Option.some.inj hslot)
    simp only [read, hb, readIncludeOpen, readEnumOpen, readFnOpen]
    cases hkind : t.kind <;> first | rfl | exact absurd hkind hspacing
  all_goals
    rw [hb] at hslot
    cases hslot

/-- A declaration that a token closes spans what is from its start to the end of the token. -/
theorem span_of_read {n : Node} (hread : b.read t ahead = .ok b') (hslot : b'.slot = .item)
    (hdone : b'.done.head? = some n) (hn : n.isTrivia = false) :
    ∃ start, b.start? = some start ∧ n.span = ⟨start, t.span.stop⟩ := by
  cases hb : b.slot
  case item =>
    simp only [read, hb, readItem] at hread
    split at hread
    all_goals cases hread
    case h_8 o outer _ houter =>
      cases hdone
      exact ⟨o.start, by rw [start?, hb, houter]; rfl, rfl⟩
    all_goals first | (cases hdone; cases hn) | cases hslot
  all_goals
    refine ⟨_, by rw [start?, hb]; rfl, ?_⟩
    simp only [read, hb, readSpecifier, readIncludeColon, readIncludeOpen, readIncludes,
      closeIncludes, readEnumName, readEnumOpen, readEnumValues, readFnName, readFnOpen, readParams,
      readParamType, readReturns, readBody] at hread
    repeat' split at hread
    all_goals cases hread
    all_goals first | exact absurd (hb.symm.trans hslot) Slot.noConfusion | cases hslot
    all_goals cases hdone <;> rfl

end Builder

namespace Cursor

open Builder

variable {c : Cursor} {b b' : Builder} {t : Token} {goal : Goal} {stop start : Position}
  {kind : Token.Kind} {next : Position → Slot} {p : Token.Kind → Bool} {i : Nat} {n : Node}
  {name : String}

/-! ## Places -/

theorem rest_moveTo (c : Cursor) (i : Nat) : (c.moveTo i).rest = c.tokens.drop i := by
  show c.tokens.drop (min i c.tokens.length) = c.tokens.drop i
  rcases Nat.le_total i c.tokens.length with h | h
  · rw [Nat.min_eq_left h]
  · rw [Nat.min_eq_right h, List.drop_eq_nil_of_le h, List.drop_eq_nil_of_le (Nat.le_refl _)]

theorem current_eq (h : c.tokens[c.index]? = some t) : c.current = t := by
  rw [current, h, Option.getD_some]

theorem rest_eq (h : c.tokens[c.index]? = some t) : c.rest = t :: c.advance.rest := by
  obtain ⟨hindex, rfl⟩ := List.getElem?_eq_some_iff.1 h
  rw [advance, rest_moveTo, rest, List.drop_eq_getElem_cons hindex]

/-- A cursor behind a token has come past all up to the end of the token. -/
theorem spanFrom_moveTo (h : c.tokens[i]? = some t) (start : Position) :
    (c.moveTo (i + 1)).spanFrom start = ⟨start, t.span.stop⟩ := by
  have hindex : (c.moveTo (i + 1)).index = i + 1 :=
    Nat.min_eq_left (List.getElem?_eq_some_iff.1 h).1
  rw [spanFrom, hindex]
  show Span.mk start ((c.tokens[i]?.map (·.span.stop)).getD start) = _
  rw [h, Option.map_some, Option.getD_some]

/-! ## Skipping -/

/-- Skipping is a loop that goes on token by token. -/
theorem skip_eq (h : c.index ≤ c.tokens.length) (hp : p .eof = false) :
    c.skip p = if p c.kind then c.advance.skip p else c := by
  cases ht : c.tokens[c.index]? with
  | none =>
    have hindex : c.index = c.tokens.length := Nat.le_antisymm h (List.getElem?_eq_none_iff.1 ht)
    have hkind : c.kind = .eof := by rw [kind, current, ht]; rfl
    have hrest : c.rest = [] := List.drop_eq_nil_of_le hindex.ge
    rw [hkind, hp, if_neg Bool.false_ne_true, skip, hrest]
    exact congrArg (Cursor.mk c.tokens · c.stop) (Nat.min_eq_left h)
  | some t =>
    have hkind : c.kind = t.kind := congrArg Token.kind (current_eq ht)
    have hlt : c.index + 1 ≤ c.tokens.length := (List.getElem?_eq_some_iff.1 ht).1
    rw [skip, rest_eq ht, hkind]
    cases hpt : p t.kind with
    | true =>
      have hadvance : c.advance.index = c.index + 1 := Nat.min_eq_left hlt
      rw [List.takeWhile_cons_of_pos (p := fun t : Token => p t.kind) hpt, if_pos rfl, skip,
        hadvance, List.length_cons, Nat.add_assoc, Nat.add_comm 1]
      rfl
    | false =>
      rw [List.takeWhile_cons_of_neg (p := fun t : Token => p t.kind) (by simp [hpt]),
        if_neg Bool.false_ne_true]
      exact congrArg (Cursor.mk c.tokens · c.stop) (Nat.min_eq_left h)

theorem rest_skip (c : Cursor) (p : Token.Kind → Bool) :
    c.rest = c.rest.takeWhile (fun t => p t.kind) ++ (c.skip p).rest := by
  rw [skip, rest_moveTo, ← List.drop_drop]
  exact (List.prefix_iff_eq_append.1 (List.takeWhile_prefix _)).symm

/-- **What a cursor skips a builder takes without a change.** -/
theorem run_skip (hslot : b.slot ≠ .item) (h : ∀ k, p k → b.slot.passes k) :
    run goal stop b (c.skip p).rest = run goal stop b c.rest := by
  rw [c.rest_skip p]
  refine (Builder.run_skip hslot fun t ht => read_of_passes (h _ ?_)).symm
  exact List.mem_takeWhile_imp (p := fun t : Token => p t.kind) ht

theorem ne_item_of_passes (h : b.slot.passes kind) : b.slot ≠ .item := by
  intro hslot
  rw [hslot] at h
  cases h

/-- Before a name, a type or a bracket spacing can be skipped. -/
theorem run_skipSpacing (h : b.slot.passes .spacing) :
    run goal stop b c.skipSpacing.rest = run goal stop b c.rest :=
  run_skip (ne_item_of_passes h) fun _ hk => eq_of_beq hk ▸ h

/-- A slot that passes line ends passes all trivia. -/
theorem passes_of_newline {slot : Slot} (h : slot.passes .newline) (hkind : kind.isTrivia) :
    slot.passes kind := by
  cases slot
  case includes => rw [Slot.passes, hkind, Bool.true_or]
  all_goals first | exact hkind | cases h

/-- Inside a list trivia can be skipped, all of it or only some. -/
theorem run_skipTrivia (h : b.slot.passes .newline) :
    run goal stop b c.skipTrivia.rest = run goal stop b c.rest :=
  run_skip (ne_item_of_passes h) fun _ => passes_of_newline h

theorem run_skipNewlines (h : b.slot.passes .newline) :
    run goal stop b c.skipNewlines.rest = run goal stop b c.rest :=
  run_skip (ne_item_of_passes h) fun _ hk => eq_of_beq hk ▸ h

theorem run_skipSpacingNewlines (h : b.slot.passes .newline) :
    run goal stop b c.skipSpacingNewlines.rest = run goal stop b c.rest := by
  refine run_skip (ne_item_of_passes h) fun k hk => passes_of_newline h ?_
  rcases Bool.or_eq_true_iff.1 hk with hk | hk <;> rw [eq_of_beq hk] <;> rfl

/-! ## Looking ahead -/

theorem peekMeaningful?_eq (c : Cursor) : c.peekMeaningful? =
    ((c.rest.zipIdx c.index).find? fun x => !x.1.kind.isPassable).map fun x => (x.2, x.1) := by
  have hmeaningless : ∀ k, meaningless.contains k = k.isPassable := by
    intro k
    cases k <;> rfl
  simp only [peekMeaningful?, peek?, hmeaningless]
  rw [← List.head?_eq_getElem?, List.head?_filter]

/-- The token that a cursor finds ahead comes after passable ones. -/
theorem exists_of_peekMeaningful? (h : c.peekMeaningful? = some (i, t)) :
    ∃ gap, c.rest = gap ++ t :: (c.moveTo (i + 1)).rest ∧ (∀ u ∈ gap, u.kind.isPassable) ∧
      t.kind.isPassable = false ∧ c.tokens[i]? = some t := by
  rw [peekMeaningful?_eq] at h
  obtain ⟨⟨u, j⟩, hfind, hfound⟩ := Option.map_eq_some_iff.1 h
  obtain ⟨rfl, rfl⟩ := Prod.mk.inj hfound
  obtain ⟨ht, before, after, hsplit, hbefore⟩ := List.find?_eq_some_iff_append.1 hfind
  have hrest : c.rest = before.map Prod.fst ++ u :: after.map Prod.fst := by
    simpa using congrArg (List.map Prod.fst) hsplit
  have hindex : j = c.index + before.length := by
    have hhere : (c.rest.zipIdx c.index)[before.length]? = some (u, j) := by
      rw [hsplit, List.getElem?_append_right (Nat.le_refl _), Nat.sub_self]
      rfl
    rw [List.getElem?_zipIdx] at hhere
    obtain ⟨_, -, hpair⟩ := Option.map_eq_some_iff.1 hhere
    exact (Prod.mk.inj hpair).2.symm
  have htoken : c.tokens[j]? = some u := by
    rw [hindex, ← List.getElem?_drop, ← rest, hrest]
    simp
  have hlater : (c.moveTo (j + 1)).rest = after.map Prod.fst := by
    rw [rest_moveTo, hindex, Nat.add_assoc, ← List.drop_drop, ← rest, hrest, List.append_cons]
    exact List.drop_left' (by simp)
  refine ⟨before.map Prod.fst, by rw [hlater, hrest], fun v hv => ?_, by simpa using ht, htoken⟩
  obtain ⟨x, hx, rfl⟩ := List.mem_map.1 hv
  simpa using hbefore x hx

/-- **What a cursor finds ahead is what a builder looks for.** -/
theorem kindAhead?_rest (c : Cursor) :
    kindAhead? c.rest = c.peekMeaningful?.map fun found => found.2.kind := by
  cases h : c.peekMeaningful? with
  | none =>
    rw [peekMeaningful?_eq, Option.map_eq_none_iff, List.find?_eq_none] at h
    have hall : ∀ u ∈ c.rest, u.kind.isPassable := by
      intro u hu
      rw [← List.zipIdx_map_fst c.index c.rest] at hu
      obtain ⟨x, hx, rfl⟩ := List.mem_map.1 hu
      simpa using h x hx
    rw [← List.append_nil c.rest, kindAhead?_passable hall]
    rfl
  | some found =>
    obtain ⟨gap, hrest, hgap, hfound, -⟩ := exists_of_peekMeaningful? h
    rw [hrest, kindAhead?_passable hgap, kindAhead?_of_not_passable hfound]
    rfl

/-! ## Imports -/

/-- **From the string on an import goes on where a colon is ahead**, and else it ends with the
string. -/
theorem run_string (hslot : b.slot = .specifier start) (h : c.peekMeaningful? = some (i, t))
    (ht : t.kind = .string) :
    run goal stop b c.rest = run goal stop
      (if (c.moveTo (i + 1)).peekMeaningful?.map (fun found => found.2.kind) = some .colon
        then b.await (.includeColon start t.text)
        else b.push (.use_ ⟨t.text, none, (c.moveTo (i + 1)).spanFrom start⟩))
      (c.moveTo (i + 1)).rest := by
  obtain ⟨gap, hrest, hgap, -, hindex⟩ := exists_of_peekMeaningful? h
  rw [← kindAhead?_rest, spanFrom_moveTo hindex, hrest, run_specifier hslot hgap ht]

theorem run_colon (hslot : b.slot = .includeColon start name) (h : c.peekMeaningful? = some (i, t))
    (ht : t.kind = .colon) :
    run goal stop b c.rest =
      run goal stop (b.await (.includeOpen start name)) (c.moveTo (i + 1)).rest := by
  obtain ⟨gap, hrest, hgap, -⟩ := exists_of_peekMeaningful? h
  rw [hrest, run_includeColon hslot hgap ht]

/-! ## Brackets -/

/-- **A bracket that has to come is consumed where it is taken**, with the same error where it is
not. -/
theorem read_opening (hslot : b.slot.opening? = some (kind, next)) (hspacing : c.kind ≠ .spacing)
    (ahead : List Token) :
    (b.read c.current ahead).mapError Refusal.error =
      (c.consume kind).1.map fun t => b.await (next t.span.start) := by
  have hkind : c.isAt kind = (c.current.kind == kind) := rfl
  rw [Builder.read_opening hslot hspacing, consume, hkind]
  by_cases h : c.current.kind = kind
  · rw [if_pos h, if_pos (beq_iff_eq.2 h)]
    rfl
  · rw [if_neg h, if_neg (by simpa using h)]
    rfl

/-- **A declaration that is closed spans the tokens from its start to the cursor.** -/
theorem span_of_read (h : c.tokens[c.index]? = some t) (hread : b.read t c.advance.rest = .ok b')
    (hslot : b'.slot = .item) (hdone : b'.done.head? = some n) (hn : n.isTrivia = false) :
    ∃ start, b.start? = some start ∧ n.span = c.advance.spanFrom start := by
  obtain ⟨start, hstart, hspan⟩ := Builder.span_of_read hread hslot hdone hn
  exact ⟨start, hstart, hspan.trans (spanFrom_moveTo h start).symm⟩

end Cursor

end Curly
