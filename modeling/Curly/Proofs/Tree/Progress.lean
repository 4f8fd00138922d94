import Curly.Proofs.Tree.Derivation
import Curly.Proofs.Tree.Outcome
import Curly.Tree.Cursor

/-!
# How far a cursor gets

A run over any tokens, with ends of input wherever they may be, stops before some of them
(`Builder.stops_run`). If it fails, then it stops at the token that is refused and of which the
error speaks, or, if it is a list without entries that is refused, behind the brace that closes it;
the error then stands at the brace that has opened it. So a cursor that reads a declaration or a
body moves on, and never beyond the end of input; one that fails has not gone back
(`Cursor.moves_read`).
-/

namespace Curly

open Grammar

namespace Builder

variable {b b' : Builder} {t : Token} {seen ts ahead : List Token} {stop opened : Position}

/-! ## Lists without entries -/

/-- The tokens end with the brace at `opened` and separators. -/
def EndsOpen (opened : Position) (seen : List Token) : Prop :=
  ∃ before opening gap, seen = before ++ opening :: gap ∧ opening.kind = .lbrace ∧
    opening.span.start = opened ∧ Separators gap

theorem EndsOpen.concat (h : EndsOpen opened seen) (ht : t.kind.isTrivia ∨ t.kind = .comma) :
    EndsOpen opened (seen ++ [t]) := by
  obtain ⟨before, opening, gap, rfl, hopening, hstart, hgap⟩ := h
  refine ⟨before, opening, gap ++ [t], by simp, hopening, hstart, ?_⟩
  rintro u hu
  rcases List.mem_append.1 hu with hu | hu
  · exact hgap u hu
  · rwa [List.mem_singleton.1 hu]

/-- If the builder is in a list that has no entries so far, the tokens `seen` are the last that it
has read. -/
def OpensIn (b : Builder) (seen : List Token) : Prop :=
  ∀ start specifier opened, b.slot = .includes start specifier opened (.names []) →
    EndsOpen opened seen

/-- A builder is in a list without entries after the brace that opens it, and stays in it over
separators only. -/
theorem includes_of_read {start : Position} {specifier : String} (h : b.read t ahead = .ok b')
    (hslot' : b'.slot = .includes start specifier opened (.names [])) :
    (b.slot = .includes start specifier opened (.names []) ∧
      (t.kind.isTrivia ∨ t.kind = .comma)) ∨ (t.kind = .lbrace ∧ t.span.start = opened) := by
  cases hslot : b.slot
  case includeOpen start' specifier' =>
    simp only [read, hslot, readIncludeOpen] at h
    split at h
    · obtain rfl := Except.ok.inj h
      rw [hslot] at hslot'
      cases hslot'
    · obtain rfl := Except.ok.inj h
      injection hslot' with _ _ hopened
      exact .inr ⟨‹_›, hopened⟩
    · cases h
  case includes start' specifier' opened' entries =>
    left
    simp only [read, hslot, readIncludes] at h
    split at h
    · obtain rfl := Except.ok.inj h
      exact ⟨hslot.symm.trans hslot', ‹_›⟩
    · split at h
      · unfold closeIncludes at h
        split at h <;> cases h <;> cases hslot'
      · split at h
        · split at h
          · next entries' hadd =>
            obtain rfl := Except.ok.inj h
            injection hslot' with _ _ _ hentries
            rw [hentries] at hadd
            unfold addInclude? at hadd
            split at hadd
            · cases hadd
            · repeat' split at hadd
              all_goals cases hadd
          · cases h
        · split at h <;> cases h
  all_goals
    simp only [read, hslot, readItem, readSpecifier, readIncludeColon, readEnumName, readEnumOpen,
      readEnumValues, readFnName, readFnOpen, readParams, readParamType, readReturns, readBody] at h
    repeat' split at h
    all_goals cases h
  all_goals first | cases hslot' | exact absurd (hslot.symm.trans hslot') Slot.noConfusion

theorem OpensIn.read (h : b.OpensIn seen) (hread : b.read t ahead = .ok b') :
    b'.OpensIn (seen ++ [t]) := by
  intro start specifier opened hslot'
  rcases includes_of_read hread hslot' with ⟨hslot, ht⟩ | ⟨ht, hstart⟩
  · exact (h _ _ _ hslot).concat ht
  · exact ⟨seen, t, [], rfl, ht, hstart, List.forall_mem_nil _⟩

/-! ## Runs -/

/-- How a run over `ts` comes to an end that has read `seen` before: it leaves some of the tokens
unread, and an error speaks of the first of them, or of a list without entries before them. -/
inductive Stops (stop : Position) (seen ts : List Token) :
    Except Refusal (Builder × List Token) → Prop
  | done {b : Builder} {unread : List Token} (taken : List Token) (split : ts = taken ++ unread) :
    Stops stop seen ts (.ok (b, unread))
  | refused {r : Refusal} (taken : List Token) (split : ts = taken ++ r.unread)
    (position : r.error.position = (r.unread.headD (.endOfInput stop)).span.start)
    (fits : r.error.cause.Fits (r.unread.headD (.endOfInput stop))) :
    Stops stop seen ts (.error r)
  | noEntries {b : Builder} {unread : List Token} (before : List Token) (opening : Token)
    (gap : List Token) (closing : Token)
    (split : seen ++ ts = before ++ opening :: (gap ++ closing :: unread))
    (isOpening : opening.kind = .lbrace) (isGap : Separators gap)
    (isClosing : closing.kind = .rbrace) :
    Stops stop seen ts (.error ⟨⟨.emptyIncludes, opening.span.start⟩, b, unread⟩)

/-- A run that goes on after a token. -/
theorem Stops.cons {out : Except Refusal (Builder × List Token)}
    (h : Stops stop (seen ++ [t]) ts out) : Stops stop seen (t :: ts) out := by
  cases h with
  | done taken split => exact .done (t :: taken) (by rw [split, List.cons_append])
  | refused taken split position fits =>
    exact .refused (t :: taken) (by rw [split, List.cons_append]) position fits
  | noEntries before opening gap closing split isOpening isGap isClosing =>
    rw [List.append_assoc, List.singleton_append] at split
    exact .noEntries before opening gap closing split isOpening isGap isClosing

/-- A run whose next token is not taken. -/
theorem stops_of_refusal {r : Refusal} (h : b.OpensIn seen) (hread : b.read t ts = .error r) :
    Stops stop seen (t :: ts) (.error r) := by
  have houtcome := outcome_read b t ts
  rw [hread] at houtcome
  cases houtcome with
  | refused position fits => exact .refused [] rfl position fits
  | noEntries isClosing isOpen =>
    obtain ⟨before, opening, gap, rfl, hopening, rfl, hgap⟩ := h _ _ _ isOpen
    exact .noEntries before opening gap t (by simp) hopening hgap isClosing

/-- **A run stops before some of its tokens**, and if it fails its error speaks of where it does. -/
theorem stops_run (goal : Goal) (h : b.OpensIn seen) :
    Stops stop seen ts (run goal stop b ts) := by
  induction ts generalizing b seen with
  | nil =>
    rw [run]
    split
    · exact .done [] rfl
    · have houtcome := outcome_read b (.endOfInput stop) []
      cases hread : b.read (.endOfInput stop) [] with
      | ok b' => exact absurd hread (read_eof_ne_ok rfl)
      | error r =>
        rw [hread] at houtcome
        cases houtcome with
        | refused position fits => exact .refused [] rfl position fits
        | noEntries isClosing => cases isClosing
  | cons t ts ih =>
    rw [run]
    split
    · exact .done [] rfl
    · cases hread : b.read t ts with
      | ok b' => exact (ih (h.read hread)).cons
      | error r => exact stops_of_refusal h hread

/-- A run to the end of an item that has none takes a token at least. -/
theorem length_lt_of_run_item {unread : List Token} (hdone : b.done = []) (hopens : b.OpensIn seen)
    (h : run .item stop b ts = .ok (b', unread)) : unread.length < ts.length := by
  have hreached : ∀ t, reached .item b t = false := fun t => by simp [reached, hdone]
  cases ts with
  | nil =>
    rw [run, hreached, if_neg Bool.false_ne_true] at h
    split at h
    · exact absurd ‹_› (read_eof_ne_ok rfl)
    · cases h
  | cons t ts =>
    obtain ⟨b'', hread, hrun⟩ := exists_read (hreached t) h
    have hstops : Stops stop (seen ++ [t]) ts (run .item stop b'' ts) :=
      stops_run .item (hopens.read hread)
    rw [hrun] at hstops
    cases hstops with
    | done taken split =>
      rw [split, List.length_cons, List.length_append]
      omega

end Builder

namespace Cursor

variable {α : Type} {c : Cursor} {front unread : List Token} {r : Reading α}

/-! ## Cursors -/

/-- How a cursor stands after it has read from `c` on. -/
inductive Moves (c : Cursor) : Reading α → Prop
  /-- It has moved on, at most to the end of input. -/
  | read {a : α} {index : Nat} (further : c.index < index) (inside : index ≤ c.tokens.length) :
    Moves c (.ok a, { c with index := index })
  /-- It stands at the token that is refused, where the error stands, too. -/
  | refused {e : GrammarError} {index : Nat} (notBefore : c.index ≤ index)
    (inside : index ≤ c.tokens.length) (span : e.span = { c with index := index }.here)
    (fits : e.cause.Fits { c with index := index }.current) :
    Moves c (.error e, { c with index := index })
  /-- It stands behind the brace that closes a list without entries, and the error at the one that
  opens it. -/
  | noEntries {e : GrammarError} {before gap after : List Token} {opening closing : Token}
    (split : c.tokens = before ++ opening :: (gap ++ closing :: after))
    (notBefore : c.index ≤ before.length) (isOpening : opening.kind = .lbrace)
    (isGap : Separators gap) (isClosing : closing.kind = .rbrace) (cause : e.cause = .emptyIncludes)
    (span : e.span = Span.point opening.span.start) :
    Moves c (.error e, { c with index := before.length + gap.length + 2 })

/-- The cursor before the last of its tokens. -/
theorem before_of_split (h : c.tokens = front ++ unread) :
    c.before unread = { c with index := front.length } := by
  have hindex : min (c.tokens.length - unread.length) c.tokens.length = front.length := by
    rw [h, List.length_append]
    omega
  rw [before, moveTo, hindex]

theorem current_of_split (h : c.tokens = front ++ unread) :
    { c with index := front.length }.current = unread.headD (.endOfInput c.stop) := by
  rw [current, h]
  cases unread <;> simp

/-- A reading of the tokens after `front`, which are not all left unread if it succeeds. -/
theorem moves_settle {ts : List Token} {out : Except Refusal (Builder × List Token)}
    {result : Builder × List Token → α × List Token} (hsplit : c.tokens = front ++ ts)
    (hfront : c.index ≤ front.length) (hresult : ∀ p, (result p).2 = p.2)
    (hstops : Builder.Stops c.stop [] ts out)
    (hfurther : ∀ b unread, out = .ok (b, unread) → c.index + unread.length < c.tokens.length) :
    Moves c (c.settle (out.map result)) := by
  cases hstops with
  | @done b unread taken split =>
    have htokens : c.tokens = (front ++ taken) ++ unread := by
      rw [hsplit, split, List.append_assoc]
    have hlength := congrArg List.length htokens
    have hless := hfurther b unread rfl
    rw [List.length_append] at hlength
    show Moves c (.ok (result (b, unread)).1, c.before (result (b, unread)).2)
    rw [hresult, before_of_split htokens]
    exact .read (by omega) (by omega)
  | @refused refusal taken split position fits =>
    have htokens : c.tokens = (front ++ taken) ++ refusal.unread := by
      rw [hsplit, split, List.append_assoc]
    have hlength := congrArg List.length htokens
    rw [List.length_append] at hlength
    rw [← current_of_split htokens] at position fits
    show Moves c (.error refusal.error, c.before refusal.unread)
    rw [before_of_split htokens]
    refine .refused ?_ (by omega) (congrArg Span.point position) fits
    rw [List.length_append]
    omega
  | @noEntries b unread before opening gap closing split isOpening isGap isClosing =>
    have htokens : c.tokens = (front ++ before) ++ opening :: (gap ++ closing :: unread) := by
      rw [hsplit, ← List.nil_append ts, split, List.append_assoc]
    have hbehind : c.tokens = ((front ++ before) ++ opening :: (gap ++ [closing])) ++ unread := by
      rw [htokens]
      simp
    have hindex : ((front ++ before) ++ opening :: (gap ++ [closing])).length =
        (front ++ before).length + gap.length + 2 := by simp; omega
    show Moves c (.error ⟨.emptyIncludes, opening.span.start⟩, c.before unread)
    rw [before_of_split hbehind, hindex]
    refine .noEntries htokens ?_ isOpening isGap isClosing rfl rfl
    rw [List.length_append]
    omega

/-- A token that is not the one that has to come. -/
theorem moves_expected (h : c.index ≤ c.tokens.length) (what : String) :
    Moves c ((.error (c.expected what), c) : Reading α) :=
  .refused (Nat.le_refl _) h rfl rfl

theorem moves_readItem (h : c.index ≤ c.tokens.length) : Moves c c.readItem := by
  have hopens : Builder.empty.OpensIn [] := fun _ _ _ hslot => Slot.noConfusion hslot
  have hsplit : c.tokens = c.tokens.take c.index ++ c.rest := (List.take_append_drop _ _).symm
  refine moves_settle hsplit ?_ (fun _ => rfl) (Builder.stops_run .item hopens)
    fun b unread hrun => ?_
  · rw [List.length_take]
    omega
  · have hless := Builder.length_lt_of_run_item rfl hopens hrun
    rw [rest, List.length_drop] at hless
    omega

theorem moves_readDeclaration (h : c.index ≤ c.tokens.length) (k : Keyword) :
    Moves c (c.readDeclaration k) := by
  rw [readDeclaration]
  split
  · exact moves_readItem h
  · exact moves_expected h _

theorem moves_readBlock (h : c.index ≤ c.tokens.length) : Moves c c.readBlock := by
  rw [readBlock]
  split
  · next hopening =>
    have hindex : c.index < c.tokens.length := by
      rcases Nat.lt_or_ge c.index c.tokens.length with hlt | hge
      · exact hlt
      · rw [isAt, kind, current, List.getElem?_eq_none hge] at hopening
        cases hopening
    have hopens : (Builder.empty.openFn default default).OpensIn [] :=
      fun _ _ _ hslot => Slot.noConfusion hslot
    have hsplit : c.tokens = c.tokens.take c.advance.index ++ c.advance.rest :=
      (List.take_append_drop _ _).symm
    have hadvance : c.advance.index = c.index + 1 := Nat.min_eq_left hindex
    refine moves_settle hsplit ?_ (fun p => ?_) (Builder.stops_run .item hopens)
      fun b unread hrun => ?_
    · rw [List.length_take]
      omega
    · dsimp only
      split <;> rfl
    · have hless := Builder.length_lt_of_run_item rfl hopens hrun
      rw [rest, List.length_drop, hadvance] at hless
      show c.index + unread.length < c.tokens.length
      have : c.advance.tokens.length = c.tokens.length := rfl
      omega
  · exact moves_expected h _

/-- **A cursor that reads moves on, and one that fails stands where its error does**, whatever the
tokens are and wherever among them there are ends of input. -/
theorem moves_read (h : c.index ≤ c.tokens.length) :
    Moves c c.readItem ∧ Moves c c.readUse ∧ Moves c c.readEnum ∧ Moves c c.readFn ∧
      Moves c c.readBlock :=
  ⟨moves_readItem h, moves_readDeclaration h _, moves_readDeclaration h _,
    moves_readDeclaration h _, moves_readBlock h⟩

/-- Tokens that no text has: ends of input stand before an import and inside it, and its list has a
comma and no entries. -/
def strayTokens : List Token :=
  [.endOfInput ⟨1, 1, 0⟩, ⟨.keyword .use_, some "use", ⟨⟨1, 1, 0⟩, ⟨1, 4, 3⟩⟩⟩,
    .endOfInput ⟨1, 4, 3⟩, ⟨.string, some "a", ⟨⟨1, 4, 3⟩, ⟨1, 7, 6⟩⟩⟩,
    ⟨.colon, some ":", ⟨⟨1, 7, 6⟩, ⟨1, 8, 7⟩⟩⟩, ⟨.lbrace, some "\x7b", ⟨⟨1, 8, 7⟩, ⟨1, 9, 8⟩⟩⟩,
    ⟨.comma, some ",", ⟨⟨1, 9, 8⟩, ⟨1, 10, 9⟩⟩⟩, ⟨.rbrace, some "\x7d", ⟨⟨1, 10, 9⟩, ⟨1, 11, 10⟩⟩⟩]

/-- The import is read over the end of input inside it, up to the end of its list, and the item
before it is not read at all. -/
theorem moves_read_stray : 1 ≤ strayTokens.length ∧
    readUse ⟨strayTokens, 1, ⟨1, 11, 10⟩⟩ =
      (.error ⟨.emptyIncludes, ⟨1, 8, 7⟩⟩, ⟨strayTokens, 8, ⟨1, 11, 10⟩⟩) ∧
    Moves ⟨strayTokens, 1, ⟨1, 11, 10⟩⟩ (readUse ⟨strayTokens, 1, ⟨1, 11, 10⟩⟩) ∧
    readItem ⟨strayTokens, 0, ⟨1, 11, 10⟩⟩ =
      (.error ⟨.unexpectedToken .eof, ⟨1, 1, 0⟩⟩, ⟨strayTokens, 0, ⟨1, 11, 10⟩⟩) ∧
    Moves ⟨strayTokens, 0, ⟨1, 11, 10⟩⟩ (readItem ⟨strayTokens, 0, ⟨1, 11, 10⟩⟩) :=
  ⟨by decide, rfl, (moves_read (by decide)).2.1, rfl, (moves_read (by decide)).1⟩

end Cursor

end Curly
