import Curly.Proofs.Tree.Grammar

/-!
# Reading what derives

A builder that is given the tokens of a form reads through them and has the form's node. One lemma
for each rule of the grammar says so, with any tokens after the form; `run_items` is the one for a
whole program or body. What comes after an import matters, since an import goes on if a colon is
ahead.
-/

namespace Curly.Builder

open Grammar

variable {goal : Goal} {stop : Position} {b b' : Builder} {t : Token} {ts rest : List Token}

/-! ## One token -/

theorem run_of_read (hr : reached goal b t = false) (h : b.read t ts = .ok b') :
    run goal stop b (t :: ts) = run goal stop b' ts := by
  rw [run, if_neg (by rw [hr]; exact Bool.false_ne_true), h]

theorem run_of_refuse {r : Refusal} (hr : reached goal b t = false)
    (h : b.read t ts = .error r) : run goal stop b (t :: ts) = .error r := by
  rw [run, if_neg (by rw [hr]; exact Bool.false_ne_true), h]

/-- Inside a declaration no goal is reached. -/
theorem reached_of_slot (h : b.slot ≠ .item) : reached goal b t = false := by
  simp [reached, isIdle, h]

/-- Before a token that is no end of input, a program has not come to its end. -/
theorem reached_program (h : t.kind ≠ .eof) : reached .program b t = false := by
  simp [reached, h]

/-- Tokens that a slot passes over. -/
theorem run_skip {gap : List Token} (hslot : b.slot ≠ .item)
    (h : ∀ t ∈ gap, ∀ ahead, b.read t ahead = .ok b) :
    run goal stop b (gap ++ rest) = run goal stop b rest := by
  induction gap with
  | nil => rfl
  | cons t gap ih =>
    rw [List.cons_append, run_of_read (reached_of_slot hslot) (h t List.mem_cons_self _)]
    exact ih fun u hu => h u (List.mem_cons_of_mem _ hu)

/-! ## What is ahead -/

theorem kindAhead?_of_not_passable (h : t.kind.isPassable = false) :
    kindAhead? (t :: ts) = some t.kind := by
  simp [kindAhead?, h]

theorem kindAhead?_of_passable (h : t.kind.isPassable) : kindAhead? (t :: ts) = kindAhead? ts := by
  simp [kindAhead?, h]

/-- What is ahead of passable tokens is what is ahead of those after them. -/
theorem kindAhead?_passable {gap : List Token} (h : ∀ u ∈ gap, u.kind.isPassable) :
    kindAhead? (gap ++ rest) = kindAhead? rest := by
  induction gap with
  | nil => rfl
  | cons u gap ih =>
    rw [List.cons_append, kindAhead?_of_passable (h u List.mem_cons_self)]
    exact ih fun v hv => h v (List.mem_cons_of_mem _ hv)

theorem passable_of_spaces {gap : List Token} (h : Spaces gap) : ∀ u ∈ gap, u.kind.isPassable :=
  fun u hu => by
    rw [h u hu]
    rfl

theorem kindAhead?_spaces {gap : List Token} (h : Spaces gap) :
    kindAhead? (gap ++ rest) = kindAhead? rest := kindAhead?_passable (passable_of_spaces h)

/-! ## Imports -/

theorem kind_ne_of_passable {kind : Token.Kind} (ht : t.kind.isPassable)
    (hkind : kind.isPassable = false) : t.kind ≠ kind := by
  rintro rfl
  rw [ht] at hkind
  cases hkind

/-- What may stand before the token that a slot of an import waits for. -/
theorem run_passable {gap : List Token} (hslot : b.slot ≠ .item) (ht : t.kind.isPassable = false)
    (hread : ∀ u ts, u.kind.isPassable → kindAhead? ts = some t.kind → b.read u ts = .ok b)
    (hgap : ∀ u ∈ gap, u.kind.isPassable) :
    run goal stop b (gap ++ t :: rest) = run goal stop b (t :: rest) := by
  induction gap with
  | nil => rfl
  | cons u gap ih =>
    obtain ⟨hu, hlater⟩ := List.forall_mem_cons.1 hgap
    have hahead : kindAhead? (gap ++ t :: rest) = some t.kind := by
      rw [kindAhead?_passable hlater, kindAhead?_of_not_passable ht]
    rw [List.cons_append, run_of_read (reached_of_slot hslot) (hread u _ hu hahead)]
    exact ih hlater

/-- Up to the string, with which an import ends unless a colon is ahead. -/
theorem run_specifier {start : Position} {gap : List Token} (hslot : b.slot = .specifier start)
    (hgap : ∀ u ∈ gap, u.kind.isPassable) (ht : t.kind = .string) :
    run goal stop b (gap ++ t :: rest) = run goal stop
      (if kindAhead? rest = some .colon then b.await (.includeColon start t.text)
        else b.push (.use_ ⟨t.text, none, ⟨start, t.span.stop⟩⟩)) rest := by
  have hopen : b.slot ≠ .item := by
    rw [hslot]
    exact Slot.noConfusion
  rw [run_passable hopen (by rw [ht]; rfl) ?_ hgap]
  · refine run_of_read (reached_of_slot hopen) ?_
    simp only [read, hslot, readSpecifier, ht, if_true]
    split <;> rfl
  · intro u ts hu hahead
    have hstring : u.kind ≠ .string := kind_ne_of_passable hu rfl
    simp [read, hslot, readSpecifier, hstring, hu, hahead, ht]

/-- From the string on up to the colon. -/
theorem run_includeColon {start : Position} {specifier : String} {gap : List Token}
    (hslot : b.slot = .includeColon start specifier) (hgap : ∀ u ∈ gap, u.kind.isPassable)
    (ht : t.kind = .colon) :
    run goal stop b (gap ++ t :: rest) =
      run goal stop (b.await (.includeOpen start specifier)) rest := by
  have hopen : b.slot ≠ .item := by
    rw [hslot]
    exact Slot.noConfusion
  rw [run_passable hopen (by rw [ht]; rfl) ?_ hgap]
  · refine run_of_read (reached_of_slot hopen) ?_
    simp [read, hslot, readIncludeColon, ht]
  · intro u ts hu hahead
    have hcolon : u.kind ≠ .colon := kind_ne_of_passable hu rfl
    simp [read, hslot, readIncludeColon, hcolon, hu, hahead, ht]

/-- The separators of an include list are passed over. -/
theorem run_separators {start opened : Position} {specifier : String} {entries : Includes}
    {gap : List Token} (hgap : Separators gap) :
    run goal stop (b.await (.includes start specifier opened entries)) (gap ++ rest) =
      run goal stop (b.await (.includes start specifier opened entries)) rest := by
  refine run_skip Slot.noConfusion fun t ht ahead => ?_
  simp [read, await, readIncludes, hgap t ht]

theorem run_includeNames {start opened : Position} {specifier : String} {ns : List String}
    {names : List Token} (h : Spread Separators ts names) :
    run goal stop (b.await (.includes start specifier opened (.names ns))) (ts ++ rest) =
      run goal stop (b.await (.includes start specifier opened
        (.names ((names.map Token.text).reverse ++ ns)))) rest := by
  induction h generalizing ns with
  | last isGap => exact run_separators isGap
  | @name gap ts names t isGap isName later ih =>
    have hread : ∀ ahead, (b.await (.includes start specifier opened (.names ns))).read t ahead =
        .ok (b.await (.includes start specifier opened (.names (t.text :: ns)))) := fun ahead => by
      simp [read, await, readIncludes, isName, addInclude?, Token.Kind.isTrivia]
    rw [List.append_assoc, List.cons_append, run_separators isGap,
      run_of_read (reached_of_slot Slot.noConfusion) (hread _), ih]
    simp

/-- What is listed between braces, with the brace that ends it. -/
theorem run_entries {start opened : Position} {specifier : String} {entries : Includes}
    (h : Entries ts entries) (ht : t.kind = .rbrace) :
    run goal stop (b.await (.includes start specifier opened (.names []))) (ts ++ t :: rest) =
      run goal stop (b.push (.use_ ⟨specifier, some entries, ⟨start, t.span.stop⟩⟩)) rest := by
  cases h with
  | @everything before after star gapBefore isStar gapAfter =>
    have hkind : star.kind = .operator := by
      simp only [Token.isOperator, Bool.and_eq_true, beq_iff_eq] at isStar
      exact isStar.1
    have hread : ∀ ahead,
        (b.await (.includes start specifier opened (.names []))).read star ahead =
          .ok (b.await (.includes start specifier opened .everything)) := fun ahead => by
      simp [read, await, readIncludes, isStar, hkind, addInclude?, Token.Kind.isTrivia]
    rw [List.append_assoc, List.cons_append, run_separators gapBefore,
      run_of_read (reached_of_slot Slot.noConfusion) (hread _), run_separators gapAfter]
    refine run_of_read (reached_of_slot Slot.noConfusion) ?_
    simp [read, await, readIncludes, ht, closeIncludes, push, Token.Kind.isTrivia]
  | @names _ names spread nonempty =>
    rw [run_includeNames spread]
    refine run_of_read (reached_of_slot Slot.noConfusion) ?_
    have hreverse : (names.map Token.text).reverse ≠ [] := by simpa using nonempty
    obtain ⟨n, ns, hns⟩ := List.exists_cons_of_ne_nil hreverse
    have hback : names.map Token.text = ns.reverse ++ [n] := by
      rw [← List.reverse_reverse (names.map Token.text), hns, List.reverse_cons]
    simp [read, await, readIncludes, ht, closeIncludes, push, Token.Kind.isTrivia, hback]

theorem read_use (hb : b.slot = .item) (ht : t.kind = .keyword .use_) (ahead : List Token) :
    b.read t ahead = .ok (b.await (.specifier t.span.start)) := by
  simp [read, hb, readItem, ht]

/-- **An import is read**, unless it has no include list and a colon comes after it. -/
theorem run_use {decl : UseDecl} (hb : b.slot = .item) (h : Use ts decl)
    (hahead : kindAhead? rest ≠ some .colon) :
    run .program stop b (ts ++ rest) = run .program stop (b.push (.use_ decl)) rest := by
  cases h with
  | @plain keyword string gap isUse isGap isString =>
    rw [List.cons_append, run_of_read (reached_program (by rw [isUse]; decide))
      (read_use hb isUse _), List.append_assoc, List.singleton_append,
      run_specifier rfl (passable_of_spaces isGap) isString, if_neg hahead]
    rfl
  | @including keyword string colon opening closing gap gap₁ gap₂ ts entries isUse isGap isString
      isGap₁ isColon isGap₂ isOpening listed isClosing =>
    have hcolon : ∀ rest, kindAhead? (gap₁ ++ colon :: rest) = some .colon := fun rest => by
      rw [kindAhead?_spaces isGap₁, kindAhead?_of_not_passable (by rw [isColon]; rfl), isColon]
    have hopening : ∀ ahead, (b.await (.includeOpen keyword.span.start string.text)).read opening
        ahead = .ok (b.await (.includes keyword.span.start string.text opening.span.start
          (.names []))) := fun ahead => by
      simp [read, await, readIncludeOpen, isOpening]
    have hspaces : ∀ u ∈ gap₂, ∀ ahead,
        (b.await (.includeOpen keyword.span.start string.text)).read u ahead =
          .ok (b.await (.includeOpen keyword.span.start string.text)) := fun u hu ahead => by
      simp [read, await, readIncludeOpen, isGap₂ u hu]
    simp only [List.cons_append, List.append_assoc, List.nil_append]
    rw [run_of_read (reached_program (by rw [isUse]; decide)) (read_use hb isUse _),
      run_specifier rfl (passable_of_spaces isGap) isString, if_pos (hcolon _),
      run_includeColon rfl (passable_of_spaces isGap₁) isColon]
    show run _ _ (b.await (.includeOpen keyword.span.start string.text)) _ = _
    rw [run_skip Slot.noConfusion hspaces,
      run_of_read (reached_of_slot Slot.noConfusion) (hopening _)]
    exact run_entries listed isClosing

/-! ## Enumerations -/

theorem run_enumValues {start : Position} {name : String} {values : List EnumValue}
    {names : List Token} (h : Spread Trivia ts names) :
    run goal stop (b.await (.enumValues start name values)) (ts ++ rest) =
      run goal stop (b.await (.enumValues start name ((names.map valueOf).reverse ++ values)))
        rest := by
  have hskip : ∀ {gap rest : List Token} {values : List EnumValue}, Trivia gap →
      run goal stop (b.await (.enumValues start name values)) (gap ++ rest) =
        run goal stop (b.await (.enumValues start name values)) rest := by
    intro gap rest values hgap
    refine run_skip Slot.noConfusion fun t ht ahead => ?_
    have := hgap t ht
    cases hkind : t.kind <;> simp_all [read, await, readEnumValues, Token.Kind.isTrivia]
  induction h generalizing values with
  | last isGap => exact hskip isGap
  | @name gap ts names t isGap isName later ih =>
    have hread : ∀ ahead, (b.await (.enumValues start name values)).read t ahead =
        .ok (b.await (.enumValues start name (valueOf t :: values))) := fun ahead => by
      simp [read, await, readEnumValues, isName, valueOf]
    rw [List.append_assoc, List.cons_append, hskip isGap,
      run_of_read (reached_of_slot Slot.noConfusion) (hread _), ih]
    simp

/-- **An enumeration is read.** -/
theorem run_enum {decl : EnumDecl} (hb : b.slot = .item) (h : Enum ts decl) :
    run .program stop b (ts ++ rest) = run .program stop (b.push (.enum decl)) rest := by
  obtain @⟨keyword, name, opening, closing, gap, gap₁, ts, values, isEnum, isGap, isName, isGap₁,
    isOpening, spread, isClosing⟩ := h
  have hkeyword : ∀ ahead, b.read keyword ahead = .ok (b.await (.enumName keyword.span.start)) :=
    fun ahead => by simp [read, hb, readItem, isEnum]
  have hgap : ∀ u ∈ gap, ∀ ahead, (b.await (.enumName keyword.span.start)).read u ahead =
      .ok (b.await (.enumName keyword.span.start)) := fun u hu ahead => by
    simp [read, await, readEnumName, isGap u hu]
  have hname : ∀ ahead, (b.await (.enumName keyword.span.start)).read name ahead =
      .ok (b.await (.enumOpen keyword.span.start name.text)) := fun ahead => by
    simp [read, await, readEnumName, isName]
  have hgap₁ : ∀ u ∈ gap₁, ∀ ahead, (b.await (.enumOpen keyword.span.start name.text)).read u
      ahead = .ok (b.await (.enumOpen keyword.span.start name.text)) := fun u hu ahead => by
    simp [read, await, readEnumOpen, isGap₁ u hu]
  have hopening : ∀ ahead, (b.await (.enumOpen keyword.span.start name.text)).read opening ahead =
      .ok (b.await (.enumValues keyword.span.start name.text [])) := fun ahead => by
    simp [read, await, readEnumOpen, isOpening]
  simp only [List.cons_append, List.append_assoc, List.nil_append]
  rw [run_of_read (reached_program (by rw [isEnum]; decide)) (hkeyword _),
    run_skip Slot.noConfusion hgap, run_of_read (reached_of_slot Slot.noConfusion) (hname _),
    run_skip Slot.noConfusion hgap₁, run_of_read (reached_of_slot Slot.noConfusion) (hopening _),
    run_enumValues spread]
  refine run_of_read (reached_of_slot Slot.noConfusion) ?_
  simp [read, await, readEnumValues, isClosing, push]

/-! ## Functions -/

/-- The slot in which a body is waited for, with all of the head known. -/
inductive AwaitsBody (start : Position) (head : FnHead) : Slot → Prop
  | body : AwaitsBody start head (.body start head)
  | returns {name : String} {params : List Param}
    (same : head = ⟨name, params.reverse, none, false⟩) :
    AwaitsBody start head (.returns start name params)

/-- A token that is no type is read for the body in either slot. -/
theorem AwaitsBody.read_eq {start : Position} {head : FnHead} {slot : Slot}
    (h : AwaitsBody start head slot) (ht : ¬ IsType t) (ahead : List Token) :
    (b.await slot).read t ahead = (b.await slot).readBody start head t ahead := by
  cases h with
  | body => rfl
  | returns same =>
    subst same
    simp only [IsType, not_or, not_exists] at ht
    cases hkind : t.kind <;> simp_all [read, await, readReturns]

theorem AwaitsBody.slot_ne {start : Position} {head : FnHead} {slot : Slot}
    (h : AwaitsBody start head slot) : slot ≠ .item := by
  cases h <;> exact Slot.noConfusion

theorem not_isType_of_kind {kind : Token.Kind} (h : t.kind = kind)
    (hkind : kind ≠ .identifier ∧ ∀ b, kind ≠ .builtin b) : ¬ IsType t := by
  rintro (ht | ⟨b, ht⟩)
  · exact hkind.1 (h.symm.trans ht)
  · exact hkind.2 b (h.symm.trans ht)

theorem run_params {start : Position} {name : String} {params ps : List Param}
    (h : Params ts ps) :
    run goal stop (b.await (.params start name params)) (ts ++ rest) =
      run goal stop (b.await (.params start name (ps.reverse ++ params))) rest := by
  have hskip : ∀ {gap rest : List Token} {params : List Param}, Trivia gap →
      run goal stop (b.await (.params start name params)) (gap ++ rest) =
        run goal stop (b.await (.params start name params)) rest := by
    intro gap rest params hgap
    refine run_skip Slot.noConfusion fun t ht ahead => ?_
    have := hgap t ht
    cases hkind : t.kind <;> simp_all [read, await, readParams, Token.Kind.isTrivia]
  induction h generalizing params with
  | last isGap => exact hskip isGap
  | @param gap gap₁ ts pname type ps isGap isName isGap₁ isType later ih =>
    have hname : ∀ ahead, (b.await (.params start name params)).read pname ahead =
        .ok (b.await (.paramType start name params pname.text)) := fun ahead => by
      simp [read, await, readParams, isName]
    have hgap₁ : ∀ u ∈ gap₁, ∀ ahead, (b.await (.paramType start name params pname.text)).read u
        ahead = .ok (b.await (.paramType start name params pname.text)) := fun u hu ahead => by
      simp [read, await, readParamType, isGap₁ u hu]
    have htype : ∀ ahead, (b.await (.paramType start name params pname.text)).read type ahead =
        .ok (b.await (.params start name (⟨pname.text, type.text⟩ :: params))) := fun ahead => by
      rcases isType with ht | ⟨t, ht⟩ <;> simp [read, await, readParamType, ht]
    simp only [List.append_assoc, List.cons_append]
    rw [hskip isGap, run_of_read (reached_of_slot Slot.noConfusion) (hname _),
      run_skip Slot.noConfusion hgap₁, run_of_read (reached_of_slot Slot.noConfusion) (htype _), ih]
    simp

/-- Spacing before a body is passed over. -/
theorem run_awaitsBody {start : Position} {head : FnHead} {slot : Slot} {gap : List Token}
    (h : AwaitsBody start head slot) (hgap : Spaces gap) :
    run goal stop (b.await slot) (gap ++ rest) = run goal stop (b.await slot) rest := by
  refine run_skip h.slot_ne fun t ht ahead => ?_
  have hkind := hgap t ht
  rw [h.read_eq (not_isType_of_kind hkind (by simp))]
  simp [readBody, hkind]

/-- **A function is read up to its body.** -/
theorem run_head {start : Position} {head : FnHead} (hb : b.slot = .item) (h : Head ts start head) :
    ∃ slot, AwaitsBody start head slot ∧
      run .program stop b (ts ++ rest) = run .program stop (b.await slot) rest := by
  obtain @⟨keyword, name, opening, closing, gap, gap₁, ts, rs, params, returns, isFn, isGap, isName,
    isGap₁, isOpening, listed, isClosing, isReturns⟩ := h
  have hkeyword : ∀ ahead, b.read keyword ahead = .ok (b.await (.fnName keyword.span.start)) :=
    fun ahead => by simp [read, hb, readItem, isFn]
  have hgap : ∀ u ∈ gap, ∀ ahead, (b.await (.fnName keyword.span.start)).read u ahead =
      .ok (b.await (.fnName keyword.span.start)) := fun u hu ahead => by
    simp [read, await, readFnName, isGap u hu]
  have hname : ∀ ahead, (b.await (.fnName keyword.span.start)).read name ahead =
      .ok (b.await (.fnOpen keyword.span.start name.text)) := fun ahead => by
    simp [read, await, readFnName, isName]
  have hgap₁ : ∀ u ∈ gap₁, ∀ ahead, (b.await (.fnOpen keyword.span.start name.text)).read u
      ahead = .ok (b.await (.fnOpen keyword.span.start name.text)) := fun u hu ahead => by
    simp [read, await, readFnOpen, isGap₁ u hu]
  have hopening : ∀ ahead, (b.await (.fnOpen keyword.span.start name.text)).read opening ahead =
      .ok (b.await (.params keyword.span.start name.text [])) := fun ahead => by
    simp [read, await, readFnOpen, isOpening]
  have hclosing : ∀ ahead, (b.await (.params keyword.span.start name.text params.reverse)).read
      closing ahead = .ok (b.await (.returns keyword.span.start name.text params.reverse)) :=
    fun ahead => by simp [read, await, readParams, isClosing]
  have hupto : ∀ rest, run .program stop b ((keyword :: (gap ++ name :: (gap₁ ++ opening ::
      (ts ++ closing :: rs)))) ++ rest) = run .program stop
        (b.await (.returns keyword.span.start name.text params.reverse)) (rs ++ rest) := by
    intro rest
    simp only [List.cons_append, List.append_assoc]
    rw [run_of_read (reached_program (by rw [isFn]; decide)) (hkeyword _),
      run_skip Slot.noConfusion hgap, run_of_read (reached_of_slot Slot.noConfusion) (hname _),
      run_skip Slot.noConfusion hgap₁,
      run_of_read (reached_of_slot Slot.noConfusion) (hopening _), run_params listed,
      List.append_nil, run_of_read (reached_of_slot Slot.noConfusion) (hclosing _)]
  rw [hupto]
  cases isReturns with
  | none isGap₂ =>
    have hawaits : AwaitsBody keyword.span.start ⟨name.text, params, none, false⟩
        (.returns keyword.span.start name.text params.reverse) := .returns (by simp)
    exact ⟨_, hawaits, run_awaitsBody hawaits isGap₂⟩
  | @some gap₂ gap₃ type isGap₂ isType isGap₃ =>
    have hawaits : AwaitsBody keyword.span.start ⟨name.text, params, none, false⟩
        (.returns keyword.span.start name.text params.reverse) := .returns (by simp)
    have htype : ∀ ahead,
        (b.await (.returns keyword.span.start name.text params.reverse)).read type ahead =
          .ok (b.await (.body keyword.span.start
            ⟨name.text, params, some type.text, false⟩)) := fun ahead => by
      rcases isType with ht | ⟨t, ht⟩ <;> simp [read, await, readReturns, ht]
    refine ⟨_, .body, ?_⟩
    rw [List.append_assoc, List.cons_append, run_awaitsBody hawaits isGap₂,
      run_of_read (reached_of_slot Slot.noConfusion) (htype _), run_awaitsBody .body isGap₃]

/-! ## Programs and bodies -/

/-- Items do not bring a colon ahead of what comes before them. -/
theorem kindAhead?_items {nodes : List Node} (h : Items ts nodes)
    (hrest : kindAhead? rest ≠ some .colon) : kindAhead? (ts ++ rest) ≠ some .colon := by
  have hfirst : ∀ {t : Token} {ts : List Token} {kind : Token.Kind}, t.kind = kind →
      kind.isPassable = false → kind ≠ .colon → kindAhead? (t :: ts) ≠ some .colon := by
    rintro t ts kind rfl hp hc
    rw [kindAhead?_of_not_passable hp]
    simpa using hc
  induction h with
  | nil => exact hrest
  | spacing ht _ ih | comment ht _ ih =>
    rw [List.cons_append, kindAhead?_of_passable (by rw [ht]; rfl)]
    exact ih
  | newline ht => exact hfirst ht rfl Token.Kind.noConfusion
  | use_ isUse => cases isUse <;> exact hfirst ‹_› rfl Token.Kind.noConfusion
  | enum isEnum => cases isEnum; exact hfirst ‹_› rfl Token.Kind.noConfusion
  | fn isHead => cases isHead; exact hfirst ‹_› rfl Token.Kind.noConfusion

/-- **The items of a program or a body are read**, one after the other and with their bodies. -/
theorem run_items {nodes : List Node} (h : Items ts nodes) :
    ∀ {outer : List OpenFn} {done : List Node} {rest : List Token},
      kindAhead? rest ≠ some .colon →
      run .program stop ⟨outer, done, .item⟩ (ts ++ rest) =
        run .program stop ⟨outer, nodes.reverse ++ done, .item⟩ rest := by
  induction h with
  | nil => intros; rfl
  | spacing ht _ ih | newline ht _ ih | comment ht _ ih =>
    intro outer done rest hrest
    rw [List.cons_append, run_of_read (reached_program (by rw [ht]; decide))
      (by simp only [read, readItem, ht]; rfl), push, ih hrest]
    simp
  | use_ isUse later ih =>
    intro outer done rest hrest
    rw [List.append_assoc, run_use rfl isUse (kindAhead?_items later hrest), push, ih hrest]
    simp
  | enum isEnum _ ih =>
    intro outer done rest hrest
    rw [List.append_assoc, run_enum rfl isEnum, push, ih hrest]
    simp
  | @fn hs bs ts start head opening closing body nodes isHead isOpening isBody isClosing later
      ihBody ih =>
    intro outer done rest hrest
    obtain ⟨slot, hawaits, hrun⟩ : ∃ slot, AwaitsBody start head slot ∧
        run .program stop ⟨outer, done, .item⟩ (hs ++ opening :: (bs ++ closing :: (ts ++ rest))) =
          run .program stop ((⟨outer, done, .item⟩ : Builder).await slot)
            (opening :: (bs ++ closing :: (ts ++ rest))) := run_head rfl isHead
    have hopening : ∀ ahead, ((⟨outer, done, .item⟩ : Builder).await slot).read opening ahead =
        .ok ⟨⟨start, head, done⟩ :: outer, [], .item⟩ := fun ahead => by
      rw [hawaits.read_eq (not_isType_of_kind isOpening (by simp))]
      simp [readBody, isOpening, openFn, await]
    have hclosing : kindAhead? (closing :: (ts ++ rest)) ≠ some .colon := by
      rw [kindAhead?_of_not_passable (by rw [isClosing]; rfl), isClosing]
      decide
    simp only [List.append_assoc, List.cons_append]
    rw [hrun, run_of_read (reached_of_slot hawaits.slot_ne) (hopening _), ihBody hclosing,
      run_of_read (reached_program (by rw [isClosing]; decide))
        (by simp only [read, readItem, isClosing]; rfl), ih hrest]
    simp

end Curly.Builder
