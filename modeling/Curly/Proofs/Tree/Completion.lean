import Curly.Proofs.Token.Piece
import Curly.Proofs.Tree.Lookahead

/-!
# Completing what has been read

Whatever a builder waits for, some tokens bring it to the end of a program: those that fill what is
open of a declaration, and a brace for each open body (`reaches_completion`). Since it is not known
what comes next while tokens are chosen, `May` leaves open what is ahead of a token. Tokens that may
lead to the end of a program do lead to it (`run_of_takes`), since an import that waits for a colon
goes no other way, and no declaration begins with one.
-/

namespace Curly.Builder

open Piece

variable {b b' b'' : Builder} {t : Token} {ts us : List Token} {stop : Position}
  {outer outer' : List OpenFn} {x : Piece} {xs ys : List Piece}

/-! ## What may be taken -/

/-- With some tokens ahead of `t`, the builder takes it and becomes `b'`. -/
def May (b : Builder) (t : Token) (b' : Builder) : Prop :=
  ∃ ahead, Lined (t :: ahead) ∧ b.read t ahead = .ok b'

/-- The builder may take the tokens one by one and become `b'`. -/
inductive Takes : Builder → List Token → Builder → Prop
  | nil (b : Builder) : Takes b [] b
  | cons {b b' b'' : Builder} {t : Token} {ts : List Token} (first : b.May t b')
    (later : Takes b' ts b'') : Takes b (t :: ts) b''

theorem Takes.append (h : Takes b ts b') (h' : Takes b' us b'') : Takes b (ts ++ us) b'' := by
  induction h with
  | nil => exact h'
  | cons first _ ih => exact .cons first (ih h')

/-- What is taken of a text may be taken. -/
theorem ReadsTo.takes (h : ReadsTo b ts us b') (hlined : Lined (ts ++ us)) : Takes b ts b' := by
  induction h with
  | nil => exact .nil _
  | cons notEof first _ ih => exact .cons ⟨_, hlined, first⟩ (ih (hlined.tail notEof))

theorem May.ne_eof (h : b.May t b') : t.kind ≠ .eof := by
  obtain ⟨ahead, hlined, hread⟩ := h
  intro ht
  rw [hlined.eq_nil_of_eof ht] at hread
  exact read_eof_ne_ok ht hread

/-- The slots that pass over line ends. -/
def takesLineEnd : Slot → Bool
  | .item | .includes .. | .enumValues .. | .params .. => true
  | _ => false

/-- Where a comment is taken, so is the line end after it. -/
theorem May.takesLineEnd (h : b.May t b') (ht : t.kind = .comment) : takesLineEnd b'.slot := by
  obtain ⟨ahead, hlined, hread⟩ := h
  have hstring : kindAhead? ahead ≠ some .string := kindAhead?_comment_ne hlined ht (.inl rfl)
  have hcolon : kindAhead? ahead ≠ some .colon := kindAhead?_comment_ne hlined ht (.inr rfl)
  cases hslot : b.slot <;>
    simp [read, hslot, readItem, readSpecifier, readIncludeColon, readIncludeOpen, readIncludes,
      readEnumName, readEnumOpen, readEnumValues, readFnName, readFnOpen, readParams,
      readParamType, readReturns, readBody, ht, hstring, hcolon, Token.Kind.isTrivia] at hread
  all_goals
    subst hread
    simp [Builder.takesLineEnd, push, hslot]

theorem Takes.takesLineEnd (h : Takes b ts b') (hlast : ∃ t ∈ ts.getLast?, t.kind = .comment) :
    takesLineEnd b'.slot := by
  obtain ⟨t, hlast, ht⟩ := hlast
  induction h with
  | nil => cases hlast
  | @cons b b' b'' u ts first later ih =>
    cases later with
    | nil =>
      obtain rfl : u = t := by simpa using hlast
      exact first.takesLineEnd ht
    | cons => exact ih (by simpa using hlast)

/-! ## From choices to a run -/

/-- What is ahead of a token may be anything that agrees with where the token has led. -/
theorem May.read_eq (h : b.May t b') (hcolon : b'.ColonAhead ts)
    (hitem : b'.slot = .item → kindAhead? ts ≠ some .colon) : b.read t ts = .ok b' := by
  obtain ⟨ahead, hlined, hread⟩ := h
  cases hslot : b.slot
  case specifier start =>
    simp only [read, hslot, readSpecifier] at hread ⊢
    split at hread
    · split at hread
      · rw [if_pos ‹_›, if_pos (hcolon (by rw [← Except.ok.inj hread]; rfl)), hread]
      · rw [if_pos ‹_›, if_neg (hitem (by rw [← Except.ok.inj hread]; rfl)), hread]
    · by_cases ht : t.kind = .spacing
      · rw [if_pos (.inl ht)] at hread
        rw [if_neg ‹_›, if_pos (.inl ht), hread]
      · rw [if_neg (not_or.2 ⟨ht, not_passable_ahead hlined ht Token.Kind.noConfusion⟩)] at hread
        exact absurd hread refuseFor_ne_ok
  case includeColon start specifier =>
    simp only [read, hslot, readIncludeColon] at hread ⊢
    split at hread
    · rw [if_pos ‹_›, hread]
    · split at hread
      · next hpass =>
        obtain rfl := Except.ok.inj hread
        rw [if_neg ‹_›, if_pos ⟨hpass.1, hcolon (by rw [awaitsColon, hslot])⟩]
      · exact absurd hread refuseUnexpected_ne_ok
  all_goals exact read_congr (fun hlooks => by simp [looksAhead, hslot] at hlooks) hread

/-- Before the end of a program a colon is ahead of the next tokens where one is waited for, and
not where a declaration begins. -/
structure Agrees (b : Builder) (ts : List Token) : Prop where
  colon : b.ColonAhead ts
  item : b.slot = .item → kindAhead? ts ≠ some .colon

theorem agrees_eof (hb : b.isIdle) : Agrees b [Token.endOfInput stop] := by
  have hahead : kindAhead? [Token.endOfInput stop] ≠ some .colon := by
    rw [kindAhead?_of_passable rfl]
    exact nofun
  refine ⟨fun hcolon => ?_, fun _ => hahead⟩
  cases hslot : b.slot <;> simp_all [isIdle, awaitsColon]

theorem Agrees.cons (h : b.May t b') (later : Agrees b' ts) : Agrees b (t :: ts) := by
  have hne := h.ne_eof
  obtain ⟨ahead, -, hread⟩ := h
  constructor
  · intro hawaits
    cases hslot : b.slot <;> simp only [awaitsColon, hslot, Bool.false_eq_true] at hawaits
    simp only [read, hslot, readIncludeColon] at hread
    split at hread
    · next ht => rw [kindAhead?_of_not_passable (by rw [ht]; rfl), ht]
    · split at hread
      · next hpass =>
        rw [kindAhead?_of_passable hpass.1]
        refine later.colon ?_
        rw [← Except.ok.inj hread, awaitsColon, hslot]
      · exact absurd hread refuseUnexpected_ne_ok
  · intro hslot
    cases hpass : t.kind.isPassable
    · rw [kindAhead?_of_not_passable hpass]
      intro hcolon
      simp [read, hslot, readItem, Option.some.inj hcolon] at hread
    · rw [kindAhead?_of_passable hpass]
      refine later.item ?_
      rcases kind_of_passable hpass with ht | ht | ht
      · simp only [read, hslot, readItem, ht] at hread
        rw [← Except.ok.inj hread, push]
      · simp only [read, hslot, readItem, ht] at hread
        rw [← Except.ok.inj hread, push]
      · exact absurd ht hne

/-- **Tokens that may lead to the end of a program lead to it.** -/
theorem run_of_takes (h : b.Takes ts b') (hidle : b'.isIdle) :
    run .program stop b (ts ++ [Token.endOfInput stop]) = .ok (b', [Token.endOfInput stop]) := by
  have hrun : Agrees b (ts ++ [Token.endOfInput stop]) ∧
      run .program stop b (ts ++ [Token.endOfInput stop]) = .ok (b', [Token.endOfInput stop]) := by
    induction h with
    | nil b =>
      have hreached : reached .program b (.endOfInput stop) := by
        simp [reached, hidle, Token.endOfInput]
      refine ⟨agrees_eof hidle, ?_⟩
      rw [List.nil_append, run, if_pos hreached]
    | cons first _ ih =>
      obtain ⟨hagrees, hrun⟩ := ih hidle
      refine ⟨.cons first hagrees, ?_⟩
      rw [List.cons_append, run_of_read (reached_program first.ne_eof)
        (first.read_eq hagrees.colon hagrees.item), hrun]
  exact hrun.2

/-! ## Endings -/

/-- The pieces bring `b` to where a declaration may begin, in the bodies of `outer`. -/
def Reaches (outer : List OpenFn) (b : Builder) (xs : List Piece) : Prop :=
  ∀ p, ∃ b', b.Takes (place p xs) b' ∧ b'.slot = .item ∧ b'.outer = outer

theorem Reaches.nil (h : b.slot = .item) : Reaches b.outer b [] := fun _ => ⟨b, .nil b, h, rfl⟩

theorem Reaches.cons (h : ∀ p, ∃ b', b.May (x.token p) b' ∧ Reaches outer b' xs) :
    Reaches outer b (x :: xs) := by
  intro p
  obtain ⟨b', first, later⟩ := h p
  obtain ⟨b'', htakes, hb''⟩ := later (p.after x.lexeme)
  exact ⟨b'', .cons first htakes, hb''⟩

theorem Reaches.append (h : Reaches outer b xs)
    (h' : ∀ b', b'.slot = .item → b'.outer = outer → Reaches outer' b' ys) :
    Reaches outer' b (xs ++ ys) := by
  intro p
  obtain ⟨b', htakes, hslot, houter⟩ := h p
  obtain ⟨b'', htakes', hb''⟩ := h' b' hslot houter (p.after (spell xs))
  rw [place_append]
  exact ⟨b'', htakes.append htakes', hb''⟩

/-- A piece that is taken at the end of a text. -/
theorem may_token (hx : x.kind ≠ .eof ∧ x.kind ≠ .comment) (p : Position)
    (hread : b.read (x.token p) [Token.endOfInput p] = .ok b') : b.May (x.token p) b' :=
  ⟨_, .token hx.1 hx.2 (.last rfl), hread⟩

/-- A piece that is taken whatever is ahead. -/
theorem Reaches.read (hx : x.kind ≠ .eof ∧ x.kind ≠ .comment)
    (h : ∀ p, ∃ b', (∀ ahead, b.read (x.token p) ahead = .ok b') ∧ Reaches outer b' xs) :
    Reaches outer b (x :: xs) := by
  refine .cons fun p => ?_
  obtain ⟨b', hread, later⟩ := h p
  exact ⟨b', may_token hx p (hread _), later⟩

/-- A name. -/
def anyName : Piece := word "a"

/-- What is missing in a slot for a declaration to be whole, or nothing between declarations. -/
def ending : Slot → List Piece
  | .item => []
  | .specifier _ => [quoted "a"]
  | .includeColon .. => [colon, lbrace, anyName, rbrace]
  | .includeOpen .. => [lbrace, anyName, rbrace]
  | .includes _ _ _ (.names []) => [anyName, rbrace]
  | .includes .. => [rbrace]
  | .enumName _ => [anyName, lbrace, rbrace]
  | .enumOpen .. => [lbrace, rbrace]
  | .enumValues .. => [rbrace]
  | .fnName _ => [anyName, lparen, rparen, lbrace, rbrace]
  | .fnOpen .. => [lparen, rparen, lbrace, rbrace]
  | .params .. => [rparen, lbrace, rbrace]
  | .paramType .. => [anyName, rparen, lbrace, rbrace]
  | .returns .. | .body .. => [lbrace, rbrace]

section Endings

variable {start opened : Position} {specifier name param : String} {entries : Includes}
  {params : List Param} {values : List EnumValue} {head : FnHead}

theorem reaches_rbrace {o : OpenFn} {os : List OpenFn} {done : List Node} :
    Reaches os ⟨o :: os, done, .item⟩ [rbrace] := by
  refine .read (by decide) fun p => ⟨_, fun _ => rfl, .nil rfl⟩

theorem reaches_body : Reaches b.outer (b.await (.body start head)) [lbrace, rbrace] :=
  .read (by decide) fun _ => ⟨b.openFn start head, fun _ => rfl, reaches_rbrace⟩

theorem reaches_returns : Reaches b.outer (b.await (.returns start name params)) [lbrace, rbrace] :=
  .read (by decide) fun _ => ⟨_, fun _ => rfl, reaches_rbrace⟩

theorem reaches_params :
    Reaches b.outer (b.await (.params start name params)) [rparen, lbrace, rbrace] :=
  .read (by decide) fun _ => ⟨_, fun _ => rfl, reaches_returns⟩

theorem reaches_paramType :
    Reaches b.outer (b.await (.paramType start name params param))
      [anyName, rparen, lbrace, rbrace] :=
  .read (by decide) fun _ => ⟨_, fun _ => rfl, reaches_params⟩

theorem reaches_fnOpen :
    Reaches b.outer (b.await (.fnOpen start name)) [lparen, rparen, lbrace, rbrace] :=
  .read (by decide) fun _ => ⟨_, fun _ => rfl, reaches_params⟩

theorem reaches_fnName :
    Reaches b.outer (b.await (.fnName start)) [anyName, lparen, rparen, lbrace, rbrace] :=
  .read (by decide) fun _ => ⟨_, fun _ => rfl, reaches_fnOpen⟩

theorem reaches_enumValues :
    Reaches b.outer (b.await (.enumValues start name values)) [rbrace] :=
  .read (by decide) fun _ => ⟨_, fun _ => rfl, .nil rfl⟩

theorem reaches_enumOpen : Reaches b.outer (b.await (.enumOpen start name)) [lbrace, rbrace] :=
  .read (by decide) fun _ => ⟨_, fun _ => rfl, reaches_enumValues⟩

theorem reaches_enumName :
    Reaches b.outer (b.await (.enumName start)) [anyName, lbrace, rbrace] :=
  .read (by decide) fun _ => ⟨_, fun _ => rfl, reaches_enumOpen⟩

theorem reaches_includes (h : entries ≠ .names []) :
    Reaches b.outer (b.await (.includes start specifier opened entries)) [rbrace] := by
  refine .read (by decide) fun p => ?_
  cases entries with
  | everything => exact ⟨_, fun _ => rfl, .nil rfl⟩
  | names ns =>
    cases ns with
    | nil => exact absurd rfl h
    | cons n ns => exact ⟨_, fun _ => rfl, .nil rfl⟩

theorem reaches_noIncludes :
    Reaches b.outer (b.await (.includes start specifier opened (.names []))) [anyName, rbrace] :=
  .read (by decide) fun _ => ⟨_, fun _ => rfl, reaches_includes nofun⟩

theorem reaches_includeOpen :
    Reaches b.outer (b.await (.includeOpen start specifier)) [lbrace, anyName, rbrace] :=
  .read (by decide) fun _ => ⟨_, fun _ => rfl, reaches_noIncludes⟩

theorem reaches_includeColon :
    Reaches b.outer (b.await (.includeColon start specifier)) [colon, lbrace, anyName, rbrace] :=
  .read (by decide) fun _ => ⟨_, fun _ => rfl, reaches_includeOpen⟩

theorem reaches_specifier : Reaches b.outer (b.await (.specifier start)) [quoted "a"] :=
  .cons fun p => ⟨_, may_token (by decide) p rfl, .nil rfl⟩

end Endings

/-- **What is open of a declaration can be filled.** -/
theorem reaches_ending (b : Builder) : Reaches b.outer b (ending b.slot) := by
  obtain ⟨outer, done, slot⟩ := b
  let b : Builder := ⟨outer, done, .item⟩
  cases slot with
  | item => exact .nil rfl
  | specifier => exact reaches_specifier (b := b)
  | includeColon => exact reaches_includeColon (b := b)
  | includeOpen => exact reaches_includeOpen (b := b)
  | includes start specifier opened entries =>
    cases entries with
    | everything => exact reaches_includes (b := b) nofun
    | names ns =>
      cases ns with
      | nil => exact reaches_noIncludes (b := b)
      | cons n ns => exact reaches_includes (b := b) nofun
  | enumName => exact reaches_enumName (b := b)
  | enumOpen => exact reaches_enumOpen (b := b)
  | enumValues => exact reaches_enumValues (b := b)
  | fnName => exact reaches_fnName (b := b)
  | fnOpen => exact reaches_fnOpen (b := b)
  | params => exact reaches_params (b := b)
  | paramType => exact reaches_paramType (b := b)
  | returns => exact reaches_returns (b := b)
  | body => exact reaches_body (b := b)

/-- A brace for each of the open bodies. -/
def closing (outer : List OpenFn) : List Piece := List.replicate outer.length rbrace

theorem reaches_closing (h : b.slot = .item) : Reaches [] b (closing b.outer) := by
  obtain ⟨outer, done, slot⟩ := b
  obtain rfl : slot = .item := h
  induction outer generalizing done with
  | nil => exact .nil rfl
  | cons o os ih => exact .read (by decide) fun p => ⟨_, fun _ => rfl, ih _⟩

/-- What may stand between what has been read and what completes it: a line end, or a blank where
no line end may be. -/
def separator (b : Builder) : Piece := if takesLineEnd b.slot then newline else space

theorem separator_kind (b : Builder) :
    (separator b).kind ≠ .eof ∧ (separator b).kind ≠ .comment := by
  unfold separator
  split <;> decide

theorem exists_may_separator (b : Builder) (p : Position) :
    ∃ b', b.May ((separator b).token p) b' ∧ b'.slot = b.slot ∧ b'.outer = b.outer := by
  have hkind := separator_kind b
  obtain ⟨outer, done, slot⟩ := b
  cases slot
  case includeColon =>
    exact ⟨_, ⟨[colon.token p, Token.endOfInput p],
      .token hkind.1 hkind.2 (.token nofun nofun (.last rfl)), rfl⟩, rfl, rfl⟩
  all_goals exact ⟨_, may_token hkind p rfl, rfl, rfl⟩

/-- **Some tokens complete whatever has been read.** -/
def completion (b : Builder) : List Piece := separator b :: (ending b.slot ++ closing b.outer)

theorem reaches_completion (b : Builder) : Reaches [] b (completion b) := by
  refine .cons fun p => ?_
  obtain ⟨b', hmay, hslot, houter⟩ := exists_may_separator b p
  refine ⟨b', hmay, ?_⟩
  rw [← hslot, ← houter]
  refine (reaches_ending b').append fun b'' hslot' houter' => ?_
  rw [← houter']
  exact reaches_closing hslot'

/-! ## The text of a completion -/

/-- A name ends before any brace or parenthesis. -/
theorem standsBefore_anyName {rest : List Char} (h : x ∈ [lbrace, rbrace, lparen, rparen]) :
    anyName.StandsBefore (x.lexeme ++ rest) := by
  refine standsBefore_word (.intro (by decide) nofun)
    (.identifier (fun k => by cases k <;> decide) fun t => by cases t <;> decide) fun c hc => ?_
  have all : ∀ x ∈ [lbrace, rbrace, lparen, rparen], ∃ c, x.lexeme = [c] ∧
      Scanner.isWordChar c = false := by simp [lbrace, rbrace, lparen, rparen]; decide
  obtain ⟨d, hx, hd⟩ := all x h
  rw [hx] at hc
  rwa [← Option.some.inj hc]

theorem stand_closing (outer : List OpenFn) : Stand [] (closing outer) := by
  induction outer with
  | nil => trivial
  | cons o os ih => exact ⟨standsBefore_rbrace, ih⟩

theorem stand_ending (slot : Slot) (rest : List Char) : Stand rest (ending slot) := by
  have hquoted : (quoted "a").StandsBefore rest := standsBefore_quoted fun c hc => by
    obtain rfl := List.mem_singleton.1 hc
    decide
  have hcolon : ∀ cs, colon.StandsBefore (lbrace.lexeme ++ cs) := fun cs =>
    standsBefore_colon (show some '\x7b' ≠ some '=' by decide)
  unfold ending
  split <;> simp [hquoted, hcolon, standsBefore_anyName]

theorem stand_completion (b : Builder) : Stand [] (completion b) := by
  refine stand_cons.2 ⟨?_, stand_append.2 ⟨stand_ending _ _, stand_closing _⟩⟩
  unfold separator
  split
  · exact standsBefore_newline
  · exact standsBefore_space

end Curly.Builder
