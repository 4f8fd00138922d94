import Curly.Proofs.Token.Sequence
import Curly.Proofs.Tree.Reading

/-!
# Deriving what is read

The other way round: tokens that a builder reads to the end derive from the grammar. Where a slot
has been filled the tokens read for it are known (`exists_gap`), and put together slot by slot they
are those of a rule. `continues_of_run` does this for the items up to the end of a body or a
program, for lists of tokens in which a comment ends its line (`Lined`), as in those of a text.
-/

namespace Curly

namespace Builder

open Grammar

variable {stop : Position} {b b' : Builder} {t : Token} {ts ahead : List Token}
  {r : Builder × List Token}

/-- After a comment nothing but a line end is ahead. -/
theorem kindAhead?_of_comment {kind : Token.Kind} (h : Lined (t :: ts)) (ht : t.kind = .comment)
    (hahead : kindAhead? ts = some kind) : kind = .newline := by
  cases h with
  | last isEof => rw [isEof] at ht; cases ht
  | token _ notComment => exact absurd ht notComment
  | @comment _ u us _ isEnd later =>
    rcases isEnd with hu | hu
    · rw [kindAhead?_of_not_passable (by rw [hu]; rfl), hu] at hahead
      exact (Option.some.inj hahead).symm
    · rw [later.eq_nil_of_eof hu, kindAhead?_of_passable (by rw [hu]; rfl)] at hahead
      cases hahead

@[simp] theorem refuse_ne_ok {error : GrammarError} : b.refuse error t ahead ≠ .ok b' := by
  rintro ⟨⟩

@[simp] theorem refuseFor_ne_ok {what : String} : b.refuseFor what t ahead ≠ .ok b' := by
  rintro ⟨⟩

@[simp] theorem refuseUnexpected_ne_ok : b.refuseUnexpected t ahead ≠ .ok b' := by
  rintro ⟨⟩

/-! ## One slot -/

theorem exists_read {goal : Goal} (hr : reached goal b t = false)
    (h : run goal stop b (t :: ts) = .ok r) :
    ∃ b', b.read t ts = .ok b' ∧ run goal stop b' ts = .ok r := by
  rw [run, if_neg (by rw [hr]; exact Bool.false_ne_true)] at h
  split at h
  · exact ⟨_, ‹_›, h⟩
  · cases h

/-- **A slot is filled by the first token that it does not pass over.** `P` is what a token has to
be that fills it, with what is ahead of it and the builder after it. -/
theorem exists_gap (skip : Token.Kind → Prop) (P : Token → List Token → Builder → Prop)
    (hslot : b.slot ≠ .item)
    (hskip : ∀ t ahead b', skip t.kind → b.read t ahead = .ok b' → b' = b)
    (hfill : ∀ t ahead b', Lined (t :: ahead) → ¬ skip t.kind → b.read t ahead = .ok b' →
      P t ahead b')
    (heof : ¬ skip .eof ∧ ∀ t ahead b', P t ahead b' → t.kind ≠ .eof)
    (hlined : Lined ts) (h : run .program stop b ts = .ok r) :
    ∃ gap t later b', ts = gap ++ t :: later ∧ (∀ u ∈ gap, skip u.kind) ∧ P t later b' ∧
      Lined later ∧ run .program stop b' later = .ok r := by
  have hfirst : ∀ {t : Token} {ts : List Token}, Lined (t :: ts) → ¬ skip t.kind →
      run .program stop b (t :: ts) = .ok r →
      ∃ b', P t ts b' ∧ Lined ts ∧ run .program stop b' ts = .ok r := by
    intro t ts hlined ht h
    obtain ⟨b', hread, hrun⟩ := exists_read (reached_of_slot hslot) h
    have hP := hfill t ts b' hlined ht hread
    exact ⟨b', hP, hlined.tail (heof.2 t ts b' hP), hrun⟩
  have hlater : ∀ {t : Token} {ts : List Token}, skip t.kind →
      run .program stop b (t :: ts) = .ok r → run .program stop b ts = .ok r := by
    intro t ts ht h
    obtain ⟨b', hread, hrun⟩ := exists_read (reached_of_slot hslot) h
    rwa [hskip t ts b' ht hread] at hrun
  induction hlined with
  | @last t isEof =>
    obtain ⟨b', hP, hl, hrun⟩ := hfirst (.last isEof) (by rw [isEof]; exact heof.1) h
    exact ⟨[], t, [], b', rfl, by simp, hP, hl, hrun⟩
  | @comment t u ts isComment isEnd later ih =>
    by_cases ht : skip t.kind
    · obtain ⟨gap, v, vs, b', hsplit, hgap, hrest⟩ := ih (hlater ht h)
      refine ⟨t :: gap, v, vs, b', by rw [hsplit, List.cons_append], ?_, hrest⟩
      exact List.forall_mem_cons.2 ⟨ht, hgap⟩
    · obtain ⟨b', hP, hl, hrun⟩ := hfirst (.comment isComment isEnd later) ht h
      exact ⟨[], t, u :: ts, b', rfl, by simp, hP, hl, hrun⟩
  | @token t ts notEof notComment later ih =>
    by_cases ht : skip t.kind
    · obtain ⟨gap, v, vs, b', hsplit, hgap, hrest⟩ := ih (hlater ht h)
      refine ⟨t :: gap, v, vs, b', by rw [hsplit, List.cons_append], ?_, hrest⟩
      exact List.forall_mem_cons.2 ⟨ht, hgap⟩
    · obtain ⟨b', hP, hl, hrun⟩ := hfirst (.token notEof notComment later) ht h
      exact ⟨[], t, ts, b', rfl, by simp, hP, hl, hrun⟩

/-- The slots that pass over spacing and take one kind of token. -/
theorem exists_spaces {slot : Slot} (P : Token → Prop) (next : Token → Slot)
    (hslot : slot ≠ .item)
    (hskip : ∀ t ahead, t.kind = .spacing → (b.await slot).read t ahead = .ok (b.await slot))
    (hfill : ∀ t ahead b', t.kind ≠ .spacing → (b.await slot).read t ahead = .ok b' →
      P t ∧ b' = b.await (next t))
    (heof : ∀ t, P t → t.kind ≠ .eof) (hlined : Lined ts)
    (h : run .program stop (b.await slot) ts = .ok r) :
    ∃ gap t later, ts = gap ++ t :: later ∧ Spaces gap ∧ P t ∧ Lined later ∧
      run .program stop (b.await (next t)) later = .ok r := by
  obtain ⟨gap, t, later, b', hsplit, hgap, ⟨hP, rfl⟩, hlined', hrun⟩ :=
    exists_gap (· = .spacing) (fun t _ b' => P t ∧ b' = b.await (next t)) hslot
      (fun t ahead b' ht hread => Except.ok.inj (hread.symm.trans (hskip t ahead ht)))
      (fun t ahead b' _ => hfill t ahead b') ⟨Token.Kind.noConfusion, fun t _ _ hP => heof t hP.1⟩
      hlined h
  exact ⟨gap, t, later, hsplit, hgap, hP, hlined', hrun⟩

/-! ## Imports -/

section Includes

variable {start opened : Position} {specifier : String} {entries : Includes}

theorem read_separator (ht : t.kind.isTrivia ∨ t.kind = .comma) :
    (b.await (.includes start specifier opened entries)).read t ahead =
      .ok (b.await (.includes start specifier opened entries)) := if_pos ht

/-- The tokens that an include list takes: the brace that ends it, and entries. -/
theorem readIncludes_ok (ht : ¬ (t.kind.isTrivia ∨ t.kind = .comma))
    (h : b.readIncludes start specifier opened entries t ahead = .ok b') :
    (t.kind = .rbrace ∧
      b.closeIncludes start specifier opened entries t.span.stop ahead = .ok b') ∨
    ((t.kind = .identifier ∨ t.isOperator "*") ∧ ∃ entries', addInclude? entries t = some entries' ∧
      b' = b.await (.includes start specifier opened entries')) := by
  rw [readIncludes, if_neg ht] at h
  split at h
  · exact .inl ⟨‹_›, h⟩
  · split at h
    · split at h
      · exact .inr ⟨‹_›, _, ‹_›, (Except.ok.inj h).symm⟩
      · exact absurd h refuse_ne_ok
    · split at h
      · exact absurd h refuseFor_ne_ok
      · exact absurd h refuseUnexpected_ne_ok

theorem kind_of_isOperator {op : String} (h : t.isOperator op) : t.kind = .operator := by
  simp only [Token.isOperator, Bool.and_eq_true, beq_iff_eq] at h
  exact h.1

/-- What can come next in an include list: its end, or an entry that may join those before. -/
inductive EntryRead (b : Builder) (start : Position) (specifier : String) (opened : Position) :
    Includes → Token → Builder → Prop
  | close {entries : Includes} {t : Token} (isClosing : t.kind = .rbrace)
    (nonempty : entries ≠ .names []) :
    EntryRead b start specifier opened entries t (b.push (.use_ ⟨specifier,
      some (match entries with | .everything => .everything | .names ns => .names ns.reverse),
      ⟨start, t.span.stop⟩⟩))
  | name {ns : List String} {t : Token} (isName : t.kind = .identifier) :
    EntryRead b start specifier opened (.names ns) t
      (b.await (.includes start specifier opened (.names (t.text :: ns))))
  | star {t : Token} (isStar : t.isOperator "*") :
    EntryRead b start specifier opened (.names []) t
      (b.await (.includes start specifier opened .everything))

theorem EntryRead.ne_eof (h : EntryRead b start specifier opened entries t b') :
    t.kind ≠ .eof := by
  cases h with
  | close isClosing => rw [isClosing]; decide
  | name isName => rw [isName]; decide
  | star isStar => rw [kind_of_isOperator isStar]; decide

theorem entryRead_of_read (ht : ¬ (t.kind.isTrivia ∨ t.kind = .comma))
    (h : (b.await (.includes start specifier opened entries)).read t ahead = .ok b') :
    EntryRead b start specifier opened entries t b' := by
  rcases readIncludes_ok ht h with ⟨hclose, hread⟩ | ⟨hkind, entries', hadd, rfl⟩
  · cases entries with
    | everything =>
      obtain rfl := Except.ok.inj hread
      exact .close hclose Includes.noConfusion
    | names ns =>
      cases ns with
      | nil => cases hread
      | cons n ns =>
        obtain rfl := Except.ok.inj hread
        exact .close hclose (by simp)
  · cases entries with
    | everything => cases hadd
    | names ns =>
      simp only [addInclude?] at hadd
      split at hadd
      · obtain rfl := Option.some.inj hadd
        exact .name ‹_›
      · split at hadd
        · next hname hempty =>
          obtain rfl := List.isEmpty_iff.1 hempty
          obtain rfl := Option.some.inj hadd
          exact .star (hkind.resolve_left hname)
        · cases hadd

theorem exists_entryRead (hlined : Lined ts)
    (h : run .program stop (b.await (.includes start specifier opened entries)) ts = .ok r) :
    ∃ gap t later b', ts = gap ++ t :: later ∧ Separators gap ∧
      EntryRead b start specifier opened entries t b' ∧ Lined later ∧
      run .program stop b' later = .ok r :=
  exists_gap (fun kind => kind.isTrivia ∨ kind = .comma)
    (fun t _ b' => EntryRead b start specifier opened entries t b') Slot.noConfusion
    (fun _ _ _ ht hread => Except.ok.inj (hread.symm.trans (read_separator ht)))
    (fun _ _ _ _ ht hread => entryRead_of_read ht hread)
    ⟨by decide, fun _ _ _ hP => hP.ne_eof⟩ hlined h

/-- The rest of an include list after a wildcard, with the brace that ends it. -/
theorem exists_afterStar (hlined : Lined ts)
    (h : run .program stop (b.await (.includes start specifier opened .everything)) ts = .ok r) :
    ∃ gap closing later, ts = gap ++ closing :: later ∧ Separators gap ∧
      closing.kind = .rbrace ∧ Lined later ∧
      run .program stop (b.push (.use_ ⟨specifier, some .everything, ⟨start, closing.span.stop⟩⟩))
        later = .ok r := by
  obtain ⟨gap, t, later, b', hsplit, hgap, hread, hlined', hrun⟩ := exists_entryRead hlined h
  cases hread with
  | close isClosing => exact ⟨gap, t, later, hsplit, hgap, isClosing, hlined', hrun⟩

/-- The rest of an include list after names, with the brace that ends it. -/
theorem exists_entries {ns : List String} (hlined : Lined ts)
    (h : run .program stop (b.await (.includes start specifier opened (.names ns))) ts = .ok r) :
    ∃ body closing later entries, ts = body ++ closing :: later ∧ closing.kind = .rbrace ∧
      ((∃ names, Spread Separators body names ∧ ns.reverse ++ names.map Token.text ≠ [] ∧
        entries = .names (ns.reverse ++ names.map Token.text)) ∨
        (ns = [] ∧ Entries body entries)) ∧
      Lined later ∧ run .program stop
        (b.push (.use_ ⟨specifier, some entries, ⟨start, closing.span.stop⟩⟩)) later = .ok r := by
  induction hlength : ts.length using Nat.strongRecOn generalizing ts ns with
  | _ n ih =>
    obtain ⟨gap, t, later, b', rfl, hgap, hread, hlined', hrun⟩ := exists_entryRead hlined h
    cases hread with
    | close isClosing nonempty =>
      refine ⟨gap, t, later, _, rfl, isClosing, .inl ⟨[], .last hgap, ?_, rfl⟩, hlined', ?_⟩
      · simpa using nonempty
      · simpa using hrun
    | name isName =>
      obtain ⟨body, closing, later', entries, rfl, isClosing, hentries, hlined'', hrun'⟩ :=
        ih _ (by rw [← hlength]; simp; omega) hlined' hrun rfl
      refine ⟨gap ++ t :: body, closing, later', entries, by simp, isClosing, .inl ?_, hlined'',
        hrun'⟩
      obtain ⟨names, hspread, -, rfl⟩ := hentries.resolve_right (by simp)
      exact ⟨t :: names, .name hgap isName hspread, by simp, by simp⟩
    | star isStar =>
      obtain ⟨after, closing, later', rfl, hafter, isClosing, hlined'', hrun'⟩ :=
        exists_afterStar hlined' hrun
      exact ⟨gap ++ t :: after, closing, later', _, by simp, isClosing,
        .inr ⟨rfl, .everything hgap isStar hafter⟩, hlined'', hrun'⟩

/-- An include list, with the brace that ends it. -/
theorem exists_includes (hlined : Lined ts)
    (h : run .program stop (b.await (.includes start specifier opened (.names []))) ts = .ok r) :
    ∃ body closing later entries, ts = body ++ closing :: later ∧ closing.kind = .rbrace ∧
      Entries body entries ∧ Lined later ∧ run .program stop
        (b.push (.use_ ⟨specifier, some entries, ⟨start, closing.span.stop⟩⟩)) later = .ok r := by
  obtain ⟨body, closing, later, entries, hsplit, isClosing, hentries, hlined', hrun⟩ :=
    exists_entries hlined h
  refine ⟨body, closing, later, entries, hsplit, isClosing, ?_, hlined', hrun⟩
  rcases hentries with ⟨names, hspread, hne, rfl⟩ | ⟨-, hentries⟩
  · exact .names hspread (by simpa using hne)
  · exact hentries

/-- A comment or an end of input has neither a string nor a colon ahead of it. -/
theorem not_passable_ahead {kind : Token.Kind} (hlined : Lined (t :: ts))
    (ht : t.kind ≠ .spacing) (hkind : kind ≠ .newline) :
    ¬ (t.kind.isPassable ∧ kindAhead? ts = some kind) := by
  rintro ⟨hpass, hahead⟩
  cases hk : t.kind <;> rw [hk] at hpass <;> try cases hpass
  · exact ht hk
  · exact hkind (kindAhead?_of_comment hlined hk hahead)
  · rw [hlined.eq_nil_of_eof hk] at hahead
    cases hahead

/-- The string of an import. Whether a colon is ahead decides what comes after it. -/
theorem exists_string (hlined : Lined ts)
    (h : run .program stop (b.await (.specifier start)) ts = .ok r) :
    ∃ gap t later, ts = gap ++ t :: later ∧ Spaces gap ∧ t.kind = .string ∧ Lined later ∧
      (run .program stop (b.await (.includeColon start t.text)) later = .ok r ∨
        run .program stop (b.push (.use_ ⟨t.text, none, ⟨start, t.span.stop⟩⟩)) later = .ok r) := by
  have hskip : ∀ t ahead b', t.kind = .spacing →
      (b.await (.specifier start)).read t ahead = .ok b' → b' = b.await (.specifier start) := by
    intro t ahead b' ht hread
    simp only [read, await, readSpecifier, ht, reduceCtorEq, if_false, true_or, if_true] at hread
    exact (Except.ok.inj hread).symm
  have hfill : ∀ t ahead b', Lined (t :: ahead) → ¬ t.kind = .spacing →
      (b.await (.specifier start)).read t ahead = .ok b' →
      t.kind = .string ∧ (b' = b.await (.includeColon start t.text) ∨
        b' = b.push (.use_ ⟨t.text, none, ⟨start, t.span.stop⟩⟩)) := by
    intro t ahead b' hlined ht hread
    simp only [read, await, readSpecifier] at hread
    split at hread
    · split at hread
      · exact ⟨‹_›, .inl (Except.ok.inj hread).symm⟩
      · exact ⟨‹_›, .inr (Except.ok.inj hread).symm⟩
    · rw [if_neg (not_or.2 ⟨ht, not_passable_ahead hlined ht Token.Kind.noConfusion⟩)] at hread
      exact absurd hread refuseFor_ne_ok
  obtain ⟨gap, t, later, b', hsplit, hgap, ⟨isString, hb'⟩, hlined', hrun⟩ :=
    exists_gap (· = .spacing)
      (fun t _ b' => t.kind = .string ∧ (b' = b.await (.includeColon start t.text) ∨
        b' = b.push (.use_ ⟨t.text, none, ⟨start, t.span.stop⟩⟩))) Slot.noConfusion hskip hfill
      ⟨Token.Kind.noConfusion, fun t _ _ hP => by rw [hP.1]; decide⟩ hlined h
  refine ⟨gap, t, later, hsplit, hgap, isString, hlined', ?_⟩
  rcases hb' with rfl | rfl
  · exact .inl hrun
  · exact .inr hrun

theorem exists_colon (hlined : Lined ts)
    (h : run .program stop (b.await (.includeColon start specifier)) ts = .ok r) :
    ∃ gap t later, ts = gap ++ t :: later ∧ Spaces gap ∧ t.kind = .colon ∧ Lined later ∧
      run .program stop (b.await (.includeOpen start specifier)) later = .ok r := by
  have hskip : ∀ t ahead b', t.kind = .spacing →
      (b.await (.includeColon start specifier)).read t ahead = .ok b' →
      b' = b.await (.includeColon start specifier) := by
    intro t ahead b' ht hread
    simp only [read, await, readIncludeColon, ht, reduceCtorEq, if_false] at hread
    split at hread
    · exact (Except.ok.inj hread).symm
    · exact absurd hread refuseUnexpected_ne_ok
  have hfill : ∀ t ahead b', Lined (t :: ahead) → ¬ t.kind = .spacing →
      (b.await (.includeColon start specifier)).read t ahead = .ok b' →
      t.kind = .colon ∧ b' = b.await (.includeOpen start specifier) := by
    intro t ahead b' hlined ht hread
    simp only [read, await, readIncludeColon] at hread
    split at hread
    · exact ⟨‹_›, (Except.ok.inj hread).symm⟩
    · rw [if_neg (not_passable_ahead hlined ht Token.Kind.noConfusion)] at hread
      exact absurd hread refuseUnexpected_ne_ok
  obtain ⟨gap, t, later, b', hsplit, hgap, ⟨isColon, rfl⟩, hlined', hrun⟩ :=
    exists_gap (· = .spacing)
      (fun t _ b' => t.kind = .colon ∧ b' = b.await (.includeOpen start specifier))
      Slot.noConfusion hskip hfill
      ⟨Token.Kind.noConfusion, fun t _ _ hP => by rw [hP.1]; decide⟩ hlined h
  exact ⟨gap, t, later, hsplit, hgap, isColon, hlined', hrun⟩

theorem exists_includeOpen (hlined : Lined ts)
    (h : run .program stop (b.await (.includeOpen start specifier)) ts = .ok r) :
    ∃ gap t later, ts = gap ++ t :: later ∧ Spaces gap ∧ t.kind = .lbrace ∧ Lined later ∧
      run .program stop (b.await (.includes start specifier t.span.start (.names []))) later =
        .ok r :=
  exists_spaces (·.kind = .lbrace) (fun t => .includes start specifier t.span.start (.names []))
    Slot.noConfusion (fun t ahead ht => by simp [read, await, readIncludeOpen, ht])
    (fun t ahead b' ht hread => by
      simp only [read, await, readIncludeOpen] at hread
      split at hread
      · exact absurd ‹_› ht
      · exact ⟨‹_›, (Except.ok.inj hread).symm⟩
      · exact absurd hread refuseFor_ne_ok)
    (fun t ht => by rw [ht]; decide) hlined h

end Includes

/-- **An import that is read derives.** -/
theorem exists_use {keyword : Token} (hkeyword : keyword.kind = .keyword .use_)
    (hlined : Lined ts)
    (h : run .program stop (b.await (.specifier keyword.span.start)) ts = .ok r) :
    ∃ us later decl, keyword :: ts = us ++ later ∧ Use us decl ∧ us ≠ [] ∧ Lined later ∧
      run .program stop (b.push (.use_ decl)) later = .ok r := by
  obtain ⟨gap, string, later, rfl, hgap, hstring, hlined', hmore | hdone⟩ :=
    exists_string hlined h
  · obtain ⟨gap₁, colon, later, rfl, hgap₁, hcolon, hlined', hrun⟩ := exists_colon hlined' hmore
    obtain ⟨gap₂, opening, later, rfl, hgap₂, hopening, hlined', hrun⟩ :=
      exists_includeOpen hlined' hrun
    obtain ⟨body, closing, later, entries, rfl, hclosing, hentries, hlined', hrun⟩ :=
      exists_includes hlined' hrun
    refine ⟨_, later, _, ?_, .including hkeyword hgap hstring hgap₁ hcolon hgap₂ hopening
      hentries hclosing, by simp, hlined', hrun⟩
    simp
  · refine ⟨_, later, _, ?_, .plain hkeyword hgap hstring, by simp, hlined', hdone⟩
    simp

/-! ## Enumerations -/

section Enum

variable {start : Position} {name : String}

theorem exists_enumName (hlined : Lined ts)
    (h : run .program stop (b.await (.enumName start)) ts = .ok r) :
    ∃ gap t later, ts = gap ++ t :: later ∧ Spaces gap ∧ t.kind = .identifier ∧ Lined later ∧
      run .program stop (b.await (.enumOpen start t.text)) later = .ok r :=
  exists_spaces (·.kind = .identifier) (fun t => .enumOpen start t.text)
    Slot.noConfusion (fun t ahead ht => by simp [read, await, readEnumName, ht])
    (fun t ahead b' ht hread => by
      simp only [read, await, readEnumName] at hread
      split at hread
      · exact absurd ‹_› ht
      · exact ⟨‹_›, (Except.ok.inj hread).symm⟩
      · exact absurd hread refuseFor_ne_ok)
    (fun t ht => by rw [ht]; decide) hlined h

theorem exists_enumOpen (hlined : Lined ts)
    (h : run .program stop (b.await (.enumOpen start name)) ts = .ok r) :
    ∃ gap t later, ts = gap ++ t :: later ∧ Spaces gap ∧ t.kind = .lbrace ∧ Lined later ∧
      run .program stop (b.await (.enumValues start name [])) later = .ok r :=
  exists_spaces (·.kind = .lbrace) (fun _ => .enumValues start name [])
    Slot.noConfusion (fun t ahead ht => by simp [read, await, readEnumOpen, ht])
    (fun t ahead b' ht hread => by
      simp only [read, await, readEnumOpen] at hread
      split at hread
      · exact absurd ‹_› ht
      · exact ⟨‹_›, (Except.ok.inj hread).symm⟩
      · exact absurd hread refuseFor_ne_ok)
    (fun t ht => by rw [ht]; decide) hlined h

/-- What comes next in an enumeration: a value, or its end. -/
theorem exists_enumValue {values : List EnumValue} (hlined : Lined ts)
    (h : run .program stop (b.await (.enumValues start name values)) ts = .ok r) :
    ∃ gap t later b', ts = gap ++ t :: later ∧ Trivia gap ∧
      ((t.kind = .identifier ∧ b' = b.await (.enumValues start name (valueOf t :: values))) ∨
        (t.kind = .rbrace ∧
          b' = b.push (.enum ⟨name, values.reverse, ⟨start, t.span.stop⟩⟩))) ∧
      Lined later ∧ run .program stop b' later = .ok r := by
  have hskip : ∀ t ahead b', t.kind.isTrivia →
      (b.await (.enumValues start name values)).read t ahead = .ok b' →
      b' = b.await (.enumValues start name values) := by
    intro t ahead b' ht hread
    cases hkind : t.kind <;> rw [hkind] at ht <;> try cases ht
    all_goals
      simp only [read, await, readEnumValues, hkind] at hread
      exact (Except.ok.inj hread).symm
  have hfill : ∀ t ahead b', Lined (t :: ahead) → ¬ t.kind.isTrivia →
      (b.await (.enumValues start name values)).read t ahead = .ok b' →
      (t.kind = .identifier ∧ b' = b.await (.enumValues start name (valueOf t :: values))) ∨
        (t.kind = .rbrace ∧
          b' = b.push (.enum ⟨name, values.reverse, ⟨start, t.span.stop⟩⟩)) := by
    intro t ahead b' _ ht hread
    simp only [read, await, readEnumValues] at hread
    split at hread
    · exact absurd (by rw [‹t.kind = _›]; rfl) ht
    · exact absurd (by rw [‹t.kind = _›]; rfl) ht
    · exact absurd (by rw [‹t.kind = _›]; rfl) ht
    · exact .inl ⟨‹_›, (Except.ok.inj hread).symm⟩
    · exact .inr ⟨‹_›, (Except.ok.inj hread).symm⟩
    · exact absurd hread refuseFor_ne_ok
    · exact absurd hread refuseUnexpected_ne_ok
  exact exists_gap (·.isTrivia)
    (fun t _ b' =>
      (t.kind = .identifier ∧ b' = b.await (.enumValues start name (valueOf t :: values))) ∨
        (t.kind = .rbrace ∧ b' = b.push (.enum ⟨name, values.reverse, ⟨start, t.span.stop⟩⟩)))
    Slot.noConfusion hskip hfill
    ⟨by decide, fun t _ _ hP => by rcases hP with ⟨ht, -⟩ | ⟨ht, -⟩ <;> rw [ht] <;> decide⟩
    hlined h

theorem exists_enumValues {values : List EnumValue} (hlined : Lined ts)
    (h : run .program stop (b.await (.enumValues start name values)) ts = .ok r) :
    ∃ body closing later names, ts = body ++ closing :: later ∧ Spread Trivia body names ∧
      closing.kind = .rbrace ∧ Lined later ∧ run .program stop (b.push
        (.enum ⟨name, values.reverse ++ names.map valueOf, ⟨start, closing.span.stop⟩⟩)) later =
          .ok r := by
  induction hlength : ts.length using Nat.strongRecOn generalizing ts values with
  | _ n ih =>
    obtain ⟨gap, t, later, b', rfl, hgap, ⟨isName, rfl⟩ | ⟨isClosing, rfl⟩, hlined', hrun⟩ :=
      exists_enumValue hlined h
    · obtain ⟨body, closing, later', names, rfl, hspread, isClosing, hlined'', hrun'⟩ :=
        ih _ (by rw [← hlength]; simp; omega) hlined' hrun rfl
      refine ⟨gap ++ t :: body, closing, later', t :: names, by simp, .name hgap isName hspread,
        isClosing, hlined'', ?_⟩
      simpa using hrun'
    · exact ⟨gap, t, later, [], rfl, .last hgap, isClosing, hlined', by simpa using hrun⟩

end Enum

/-- **An enumeration that is read derives.** -/
theorem exists_enum {keyword : Token} (hkeyword : keyword.kind = .keyword .enum)
    (hlined : Lined ts)
    (h : run .program stop (b.await (.enumName keyword.span.start)) ts = .ok r) :
    ∃ es later decl, keyword :: ts = es ++ later ∧ Enum es decl ∧ es ≠ [] ∧ Lined later ∧
      run .program stop (b.push (.enum decl)) later = .ok r := by
  obtain ⟨gap, name, later, rfl, hgap, hname, hlined', hrun⟩ := exists_enumName hlined h
  obtain ⟨gap₁, opening, later, rfl, hgap₁, hopening, hlined', hrun⟩ := exists_enumOpen hlined' hrun
  obtain ⟨body, closing, later, names, rfl, hspread, hclosing, hlined', hrun⟩ :=
    exists_enumValues hlined' hrun
  refine ⟨_, later, _, ?_, .intro hkeyword hgap hname hgap₁ hopening hspread hclosing, by simp,
    hlined', hrun⟩
  simp

/-! ## Functions -/

section Fn

variable {start : Position} {name param : String} {params : List Param} {head : FnHead}

theorem exists_fnName (hlined : Lined ts)
    (h : run .program stop (b.await (.fnName start)) ts = .ok r) :
    ∃ gap t later, ts = gap ++ t :: later ∧ Spaces gap ∧ t.kind = .identifier ∧ Lined later ∧
      run .program stop (b.await (.fnOpen start t.text)) later = .ok r :=
  exists_spaces (·.kind = .identifier) (fun t => .fnOpen start t.text)
    Slot.noConfusion (fun t ahead ht => by simp [read, await, readFnName, ht])
    (fun t ahead b' ht hread => by
      simp only [read, await, readFnName] at hread
      split at hread
      · exact absurd ‹_› ht
      · exact ⟨‹_›, (Except.ok.inj hread).symm⟩
      · exact absurd hread refuseFor_ne_ok)
    (fun t ht => by rw [ht]; decide) hlined h

theorem exists_fnOpen (hlined : Lined ts)
    (h : run .program stop (b.await (.fnOpen start name)) ts = .ok r) :
    ∃ gap t later, ts = gap ++ t :: later ∧ Spaces gap ∧ t.kind = .lparen ∧ Lined later ∧
      run .program stop (b.await (.params start name [])) later = .ok r :=
  exists_spaces (·.kind = .lparen) (fun _ => .params start name [])
    Slot.noConfusion (fun t ahead ht => by simp [read, await, readFnOpen, ht])
    (fun t ahead b' ht hread => by
      simp only [read, await, readFnOpen] at hread
      split at hread
      · exact absurd ‹_› ht
      · exact ⟨‹_›, (Except.ok.inj hread).symm⟩
      · exact absurd hread refuseFor_ne_ok)
    (fun t ht => by rw [ht]; decide) hlined h

theorem exists_paramType (hlined : Lined ts)
    (h : run .program stop (b.await (.paramType start name params param)) ts = .ok r) :
    ∃ gap t later, ts = gap ++ t :: later ∧ Spaces gap ∧ IsType t ∧ Lined later ∧
      run .program stop (b.await (.params start name (⟨param, t.text⟩ :: params))) later = .ok r :=
  exists_spaces IsType (fun t => .params start name (⟨param, t.text⟩ :: params))
    Slot.noConfusion (fun t ahead ht => by simp [read, await, readParamType, ht])
    (fun t ahead b' ht hread => by
      simp only [read, await, readParamType] at hread
      split at hread
      · exact absurd ‹_› ht
      · exact ⟨.inl ‹_›, (Except.ok.inj hread).symm⟩
      · exact ⟨.inr ⟨_, ‹_›⟩, (Except.ok.inj hread).symm⟩
      · exact absurd hread refuseFor_ne_ok)
    (fun t ht => by rcases ht with ht | ⟨_, ht⟩ <;> rw [ht] <;> exact Token.Kind.noConfusion)
    hlined h

/-- What comes next between the parentheses: the name of a parameter, or the end. -/
theorem exists_paramName (hlined : Lined ts)
    (h : run .program stop (b.await (.params start name params)) ts = .ok r) :
    ∃ gap t later b', ts = gap ++ t :: later ∧ Trivia gap ∧
      ((t.kind = .identifier ∧ b' = b.await (.paramType start name params t.text)) ∨
        (t.kind = .rparen ∧ b' = b.await (.returns start name params))) ∧
      Lined later ∧ run .program stop b' later = .ok r := by
  have hskip : ∀ t ahead b', t.kind.isTrivia →
      (b.await (.params start name params)).read t ahead = .ok b' →
      b' = b.await (.params start name params) := by
    intro t ahead b' ht hread
    cases hkind : t.kind <;> rw [hkind] at ht <;> try cases ht
    all_goals
      simp only [read, await, readParams, hkind] at hread
      exact (Except.ok.inj hread).symm
  have hfill : ∀ t ahead b', Lined (t :: ahead) → ¬ t.kind.isTrivia →
      (b.await (.params start name params)).read t ahead = .ok b' →
      (t.kind = .identifier ∧ b' = b.await (.paramType start name params t.text)) ∨
        (t.kind = .rparen ∧ b' = b.await (.returns start name params)) := by
    intro t ahead b' _ ht hread
    simp only [read, await, readParams] at hread
    split at hread
    · exact absurd (by rw [‹t.kind = _›]; rfl) ht
    · exact absurd (by rw [‹t.kind = _›]; rfl) ht
    · exact absurd (by rw [‹t.kind = _›]; rfl) ht
    · exact .inl ⟨‹_›, (Except.ok.inj hread).symm⟩
    · exact .inr ⟨‹_›, (Except.ok.inj hread).symm⟩
    · exact absurd hread refuseFor_ne_ok
  exact exists_gap (·.isTrivia)
    (fun t _ b' =>
      (t.kind = .identifier ∧ b' = b.await (.paramType start name params t.text)) ∨
        (t.kind = .rparen ∧ b' = b.await (.returns start name params)))
    Slot.noConfusion hskip hfill
    ⟨by decide, fun t _ _ hP => by rcases hP with ⟨ht, -⟩ | ⟨ht, -⟩ <;> rw [ht] <;> decide⟩
    hlined h

theorem exists_params (hlined : Lined ts)
    (h : run .program stop (b.await (.params start name params)) ts = .ok r) :
    ∃ body closing later ps, ts = body ++ closing :: later ∧ Params body ps ∧
      closing.kind = .rparen ∧ Lined later ∧ run .program stop
        (b.await (.returns start name (ps.reverse ++ params))) later = .ok r := by
  induction hlength : ts.length using Nat.strongRecOn generalizing ts params with
  | _ n ih =>
    obtain ⟨gap, t, later, b', rfl, hgap, ⟨isName, rfl⟩ | ⟨isClosing, rfl⟩, hlined', hrun⟩ :=
      exists_paramName hlined h
    · obtain ⟨gap₁, type, later, rfl, hgap₁, isType, hlined', hrun⟩ := exists_paramType hlined' hrun
      obtain ⟨body, closing, later', ps, rfl, hparams, isClosing, hlined'', hrun'⟩ :=
        ih _ (by rw [← hlength]; simp; omega) hlined' hrun rfl
      refine ⟨gap ++ t :: (gap₁ ++ type :: body), closing, later', _, by simp,
        .param hgap isName hgap₁ isType hparams, isClosing, hlined'', ?_⟩
      simpa using hrun'
    · exact ⟨gap, t, later, [], rfl, .last hgap, isClosing, hlined', hrun⟩

/-- The brace that opens a body is what comes next in a slot that waits for one, unless a type
does. -/
theorem readBody_ok (ht : t.kind ≠ .spacing) (h : b.readBody start head t ahead = .ok b') :
    t.kind = .lbrace ∧ b' = b.openFn start head := by
  simp only [readBody] at h
  split at h
  · exact absurd ‹_› ht
  · exact ⟨‹_›, (Except.ok.inj h).symm⟩
  · exact absurd h refuse_ne_ok
  · exact absurd h refuseFor_ne_ok

theorem exists_body (hlined : Lined ts)
    (h : run .program stop (b.await (.body start head)) ts = .ok r) :
    ∃ gap t later, ts = gap ++ t :: later ∧ Spaces gap ∧ t.kind = .lbrace ∧ Lined later ∧
      run .program stop (b.openFn start head) later = .ok r := by
  have hskip : ∀ t ahead b', t.kind = .spacing →
      (b.await (.body start head)).read t ahead = .ok b' → b' = b.await (.body start head) := by
    intro t ahead b' ht hread
    simp only [read, await, readBody, ht] at hread
    exact (Except.ok.inj hread).symm
  have hfill : ∀ t ahead b', Lined (t :: ahead) → ¬ t.kind = .spacing →
      (b.await (.body start head)).read t ahead = .ok b' →
      t.kind = .lbrace ∧ b' = b.openFn start head := by
    intro t ahead b' _ ht hread
    exact readBody_ok (b := b.await (.body start head)) ht hread
  obtain ⟨gap, t, later, b', hsplit, hgap, ⟨isOpening, rfl⟩, hlined', hrun⟩ :=
    exists_gap (· = .spacing)
      (fun t _ b' => t.kind = .lbrace ∧ b' = b.openFn start head) Slot.noConfusion hskip hfill
      ⟨Token.Kind.noConfusion, fun t _ _ hP => by rw [hP.1]; decide⟩ hlined h
  exact ⟨gap, t, later, hsplit, hgap, isOpening, hlined', hrun⟩

/-- What stands between the parameters and the body, with the brace that opens the body. -/
theorem exists_returns (hlined : Lined ts)
    (h : run .program stop (b.await (.returns start name params)) ts = .ok r) :
    ∃ rs t later returns, ts = rs ++ t :: later ∧ Returns rs returns ∧ t.kind = .lbrace ∧
      Lined later ∧
      run .program stop (b.openFn start ⟨name, params.reverse, returns, false⟩) later = .ok r := by
  have hskip : ∀ t ahead b', t.kind = .spacing →
      (b.await (.returns start name params)).read t ahead = .ok b' →
      b' = b.await (.returns start name params) := by
    intro t ahead b' ht hread
    simp only [read, await, readReturns, readBody, ht] at hread
    exact (Except.ok.inj hread).symm
  have hfill : ∀ t ahead b', Lined (t :: ahead) → ¬ t.kind = .spacing →
      (b.await (.returns start name params)).read t ahead = .ok b' →
      (IsType t ∧ b' = b.await (.body start ⟨name, params.reverse, some t.text, false⟩)) ∨
        (t.kind = .lbrace ∧ b' = b.openFn start ⟨name, params.reverse, none, false⟩) := by
    intro t ahead b' _ ht hread
    simp only [read, await, readReturns] at hread
    split at hread
    · exact .inl ⟨.inl ‹_›, (Except.ok.inj hread).symm⟩
    · exact .inl ⟨.inr ⟨_, ‹_›⟩, (Except.ok.inj hread).symm⟩
    · exact .inr (readBody_ok (b := b.await (.returns start name params)) ht hread)
  obtain ⟨gap, t, later, b', rfl, hgap, ⟨isType, rfl⟩ | ⟨isOpening, rfl⟩, hlined', hrun⟩ :=
    exists_gap (· = .spacing)
      (fun t _ b' =>
        (IsType t ∧ b' = b.await (.body start ⟨name, params.reverse, some t.text, false⟩)) ∨
          (t.kind = .lbrace ∧ b' = b.openFn start ⟨name, params.reverse, none, false⟩))
      Slot.noConfusion hskip hfill
      ⟨Token.Kind.noConfusion, fun t _ _ hP => by
        rcases hP with ⟨ht | ⟨_, ht⟩, -⟩ | ⟨ht, -⟩ <;> rw [ht] <;> exact Token.Kind.noConfusion⟩
      hlined h
  · obtain ⟨gap₁, opening, later, rfl, hgap₁, isOpening, hlined', hrun⟩ := exists_body hlined' hrun
    exact ⟨gap ++ t :: gap₁, opening, later, _, by simp, .some hgap isType hgap₁, isOpening,
      hlined', hrun⟩
  · exact ⟨gap, t, later, _, rfl, .none hgap, isOpening, hlined', hrun⟩

end Fn

/-- **A function that is read up to its body derives up to it.** -/
theorem exists_head {keyword : Token} (hkeyword : keyword.kind = .keyword .fn)
    (hlined : Lined ts)
    (h : run .program stop (b.await (.fnName keyword.span.start)) ts = .ok r) :
    ∃ hs head opening later, keyword :: ts = hs ++ opening :: later ∧
      Head hs keyword.span.start head ∧ opening.kind = .lbrace ∧ Lined later ∧
      run .program stop (b.openFn keyword.span.start head) later = .ok r := by
  obtain ⟨gap, name, later, rfl, hgap, hname, hlined', hrun⟩ := exists_fnName hlined h
  obtain ⟨gap₁, opening, later, rfl, hgap₁, hopening, hlined', hrun⟩ := exists_fnOpen hlined' hrun
  obtain ⟨body, closing, later, ps, rfl, hparams, hclosing, hlined', hrun⟩ :=
    exists_params hlined' hrun
  obtain ⟨rs, brace, later, returns, rfl, hreturns, hbrace, hlined', hrun⟩ :=
    exists_returns hlined' hrun
  refine ⟨_, _, brace, later, ?_, .intro hkeyword hgap hname hgap₁ hopening hparams hclosing
    hreturns, hbrace, hlined', ?_⟩
  · simp
  · simpa using hrun

/-! ## Programs and bodies -/

/-- How a run over `ts` goes on after the items that are next: to the end of the program, or with
the function around them once their body is closed. -/
inductive Continues (stop : Position) (r : Builder × List Token) :
    List OpenFn → List Node → List Token → Prop
  | program {done nodes : List Node} {body later : List Token} {t : Token}
    (items : Items body nodes) (isEof : t.kind = .eof)
    (result : r = (⟨[], nodes.reverse ++ done, .item⟩, t :: later)) :
    Continues stop r [] done (body ++ t :: later)
  | body {o : OpenFn} {outer : List OpenFn} {done nodes : List Node} {body later : List Token}
    {t : Token} (items : Items body nodes) (isClosing : t.kind = .rbrace) (lined : Lined later)
    (goesOn : run .program stop ⟨outer, .fn o.head (nodes.reverse ++ done).reverse
      ⟨o.start, t.span.stop⟩ :: o.before, .item⟩ later = .ok r) :
    Continues stop r (o :: outer) done (body ++ t :: later)

/-- One more item in front. -/
theorem Continues.cons {outer : List OpenFn} {done : List Node} {n : Node} (us : List Token)
    (hitem : ∀ {body nodes}, Items body nodes → Items (us ++ body) (n :: nodes))
    (h : Continues stop r outer (n :: done) ts) : Continues stop r outer done (us ++ ts) := by
  cases h with
  | program items isEof result =>
    rw [← List.append_assoc]
    exact .program (hitem items) isEof (by simpa using result)
  | body items isClosing lined goesOn =>
    rw [← List.append_assoc]
    exact .body (hitem items) isClosing lined (by simpa using goesOn)

/-- **The items that are read up to the end of a body or a program derive.** -/
theorem continues_of_run {outer : List OpenFn} {done : List Node} (hlined : Lined ts)
    (h : run .program stop ⟨outer, done, .item⟩ ts = .ok r) : Continues stop r outer done ts := by
  induction hlength : ts.length using Nat.strongRecOn generalizing ts outer done with
  | _ n ih =>
    have hnext : ∀ {outer : List OpenFn} {done : List Node} {us later : List Token},
        us ≠ [] → ts = us ++ later → Lined later →
        run .program stop ⟨outer, done, .item⟩ later = .ok r →
        Continues stop r outer done later := by
      intro outer done us later hne hts hlined' hrun
      refine ih _ ?_ hlined' hrun rfl
      have := List.length_pos_iff.2 hne
      rw [← hlength, hts, List.length_append]
      omega
    obtain ⟨t, ts, rfl⟩ : ∃ t us, ts = t :: us := by cases hlined <;> exact ⟨_, _, rfl⟩
    by_cases ht : t.kind = .eof
    · cases outer with
      | nil =>
        rw [run, if_pos (by simp [reached, isIdle, ht])] at h
        show Continues stop r [] done ([] ++ t :: ts)
        exact .program .nil ht (Except.ok.inj h).symm
      | cons o outer =>
        obtain ⟨b', hread, -⟩ := exists_read (by simp [reached, isIdle]) h
        simp only [read, readItem, ht] at hread
        exact absurd hread refuseFor_ne_ok
    · obtain ⟨b', hread, hrun⟩ := exists_read (reached_program ht) h
      have hlined' := hlined.tail ht
      simp only [read, readItem] at hread
      split at hread
      · obtain rfl := Except.ok.inj hread
        exact (hnext (List.cons_ne_nil t []) rfl hlined' hrun).cons [t] (.newline ‹_›)
      · obtain rfl := Except.ok.inj hread
        exact (hnext (List.cons_ne_nil t []) rfl hlined' hrun).cons [t] (.spacing ‹_›)
      · obtain rfl := Except.ok.inj hread
        exact (hnext (List.cons_ne_nil t []) rfl hlined' hrun).cons [t] (.comment ‹_›)
      · obtain rfl := Except.ok.inj hread
        obtain ⟨us, later, decl, hsplit, huse, hne, hlined'', hrun'⟩ := exists_use ‹_› hlined' hrun
        rw [hsplit]
        exact (hnext hne hsplit hlined'' hrun').cons us (.use_ huse)
      · obtain rfl := Except.ok.inj hread
        obtain ⟨es, later, decl, hsplit, henum, hne, hlined'', hrun'⟩ :=
          exists_enum ‹_› hlined' hrun
        rw [hsplit]
        exact (hnext hne hsplit hlined'' hrun').cons es (.enum henum)
      · obtain rfl := Except.ok.inj hread
        obtain ⟨hs, head, opening, later, hsplit, hhead, hopening, hlined'', hrun'⟩ :=
          exists_head ‹_› hlined' hrun
        have hbody := hnext (List.append_ne_nil_of_right_ne_nil hs (List.cons_ne_nil opening []))
          (by simpa using hsplit) hlined'' hrun'
        cases hbody with
        | @body _ _ _ nodes bs later closing items isClosing lined goesOn =>
          rw [List.append_nil, List.reverse_reverse] at goesOn
          have hsplit' : t :: ts = (hs ++ opening :: (bs ++ [closing])) ++ later := by
            simpa using hsplit
          rw [hsplit']
          refine (hnext (by simp) hsplit' lined goesOn).cons _ fun hitems => ?_
          simpa using Items.fn hhead hopening items isClosing hitems
      · exact absurd hread refuse_ne_ok
      · obtain rfl := Except.ok.inj hread
        rw [← List.nil_append (t :: ts)]
        exact .body .nil ‹_› hlined' hrun
      · exact absurd ‹_› ht
      · exact absurd hread refuseUnexpected_ne_ok

end Builder

end Curly
