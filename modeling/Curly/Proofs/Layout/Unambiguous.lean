import Curly.Proofs.Layout.RoundTrip

/-!
# What canonical text tells

Canonical text can be told apart even where it is not read back, after an arrow: the tokens of a
canonical text that are no blanks and no line ends say which declarations it is the text of, up to
spans (`sameShape_of_signs`). Each declaration says by itself where it ends, unless it is an import,
which would go on with a colon.
-/

namespace Curly

/-- Whether tokens of this kind are words. -/
def Token.Kind.isWord : Token.Kind → Bool
  | .identifier | .keyword _ | .builtin _ => true
  | _ => false

/-- Whether tokens of this kind only set others apart. -/
def Token.Kind.isGap : Token.Kind → Bool
  | .spacing | .newline => true
  | _ => false

namespace Layout

open Piece

/-! ## Signs -/

/-- What a token says: its kind and its text. -/
abbrev Sign := Token.Kind × String

/-- What the tokens say that are no gaps. -/
def tokenSigns (ts : List Token) : List Sign :=
  (ts.filter fun t => !t.kind.isGap).map fun t => (t.kind, t.text)

/-- What the token of the piece says. -/
def sign (x : Piece) : Sign := (x.kind, x.kind.literal x.lexeme)

/-- What the tokens of the pieces say that are no gaps. -/
def signs (xs : List Piece) : List Sign := (xs.filter fun x => !x.kind.isGap).map sign

variable {unit : List Char} {d : Nat} {x : Piece} {xs ys : List Piece} {s : String}
  {ss tt : List Sign}

theorem tokenSigns_place (p : Position) (xs : List Piece) :
    tokenSigns (place p xs) = signs xs := by
  induction xs generalizing p with
  | nil => rfl
  | cons x xs ih =>
    have hlater := ih (p.after x.lexeme)
    simp only [tokenSigns, signs] at hlater ⊢
    rw [place_cons, List.filter_cons, List.filter_cons, token_kind]
    split
    · rw [List.map_cons, hlater, List.map_cons]
      rfl
    · exact hlater

@[simp] theorem signs_nil : signs [] = [] := rfl

@[simp] theorem signs_append : signs (xs ++ ys) = signs xs ++ signs ys := by
  simp [signs]

theorem signs_cons (h : x.kind.isGap = false) : signs (x :: xs) = sign x :: signs xs := by
  simp [signs, h]

theorem signs_gap (h : x.kind.isGap) : signs (x :: xs) = signs xs := by
  simp [signs, h]

@[simp] theorem signs_space : signs (space :: xs) = signs xs := signs_gap rfl

@[simp] theorem signs_newline : signs (newline :: xs) = signs xs := signs_gap rfl

@[simp] theorem signs_lbrace : signs (lbrace :: xs) = sign lbrace :: signs xs := signs_cons rfl

@[simp] theorem signs_rbrace : signs (rbrace :: xs) = sign rbrace :: signs xs := signs_cons rfl

@[simp] theorem signs_lparen : signs (lparen :: xs) = sign lparen :: signs xs := signs_cons rfl

@[simp] theorem signs_rparen : signs (rparen :: xs) = sign rparen :: signs xs := signs_cons rfl

@[simp] theorem signs_colon : signs (colon :: xs) = sign colon :: signs xs := signs_cons rfl

@[simp] theorem signs_asterisk : signs (asterisk :: xs) = sign asterisk :: signs xs :=
  signs_cons rfl

@[simp] theorem signs_arrow : signs (arrow :: xs) = sign arrow :: signs xs := signs_cons rfl

@[simp] theorem signs_keyword (k : Keyword) :
    signs (keyword k :: xs) = sign (keyword k) :: signs xs := signs_cons rfl

@[simp] theorem signs_quoted : signs (quoted s :: xs) = sign (quoted s) :: signs xs :=
  signs_cons rfl

/-- The sign of a word. -/
def wordSign (s : String) : Sign := (Scanner.wordKind s, s)

theorem signs_word (h : IsTypeName s) : signs (word s :: xs) = wordSign s :: signs xs := by
  have htext := token_word_text h .origin
  rw [token_text] at htext
  have hgap : (word s).kind.isGap = false := by
    obtain ⟨-, hkind | ⟨b, hkind⟩⟩ := h <;> rw [word_kind hkind] <;> rfl
  rw [signs_cons hgap, sign, htext]
  rfl

theorem sign_quoted (s : String) : sign (quoted s) = (.string, s) :=
  congrArg (Prod.mk _) (token_quoted_text s .origin)

@[simp] theorem signs_lineBreak : signs (lineBreak unit d) = [] := by
  have hgaps : ∀ x ∈ (margin unit d).map blank, x.kind.isGap := by
    intro x hx
    obtain ⟨c, -, rfl⟩ := List.mem_map.1 hx
    rfl
  rw [lineBreak, signs_newline, signs, List.filter_eq_nil_iff.2 fun x hx => by simp [hgaps x hx]]
  rfl

theorem signs_lines (entries : List (List Piece)) :
    signs (entries.flatMap fun e => lineBreak unit d ++ e) = entries.flatMap signs := by
  induction entries with
  | nil => rfl
  | cons e entries ih => simp [ih]

theorem signs_flatten (entries : List (List Piece)) :
    signs entries.flatten = entries.flatMap signs := by
  induction entries with
  | nil => rfl
  | cons e entries ih => simp [ih]

theorem signs_entries (entries : List (List Piece)) :
    signs (entryPieces unit d entries) = entries.flatMap signs := by
  rw [entryPieces]
  split
  · rw [List.isEmpty_iff.1 ‹entries.isEmpty = true›]
    rfl
  · rw [signs_append, signs_lines, signs_lineBreak, List.append_nil]

/-- The signs of a parameter. -/
def paramSigns (p : Param) : List Sign := [wordSign p.name, wordSign p.type]

theorem signs_words {β : Type} {xs : List β} {f : β → String} (h : ∀ x ∈ xs, IsName (f x)) :
    (xs.map fun x => [word (f x)]).flatMap signs = (xs.map f).flatMap fun s => [wordSign s] := by
  rw [List.flatMap_map, List.flatMap_map]
  exact List.flatMap_congr fun x hx => signs_word (h x hx).isTypeName

theorem signs_params {params : List Param}
    (h : ∀ p ∈ params, IsName p.name ∧ IsTypeName p.type) :
    (params.map paramPieces).flatMap signs = params.flatMap paramSigns := by
  rw [List.flatMap_map]
  refine List.flatMap_congr fun p hp => ?_
  obtain ⟨hname, htype⟩ := h p hp
  rw [paramPieces, signs_word hname.isTypeName, signs_space, signs_word htype]
  rfl

/-! ## Lists -/

/-- **A list ends where its closing bracket is**, and has the entries before it. -/
theorem cancel_flatMap {α : Type} {f : α → List Sign} {stop : Sign}
    (hf : ∀ {a b : α} {ss tt : List Sign}, f a ++ ss = f b ++ tt → a = b ∧ ss = tt)
    (hstop : ∀ {a : α} {ss tt : List Sign}, f a ++ ss ≠ stop :: tt) {as bs : List α}
    (h : as.flatMap f ++ stop :: ss = bs.flatMap f ++ stop :: tt) : as = bs ∧ ss = tt := by
  induction as generalizing bs with
  | nil =>
    cases bs with
    | nil => exact ⟨rfl, (List.cons.inj h).2⟩
    | cons b bs =>
      rw [List.flatMap_cons, List.append_assoc] at h
      exact absurd h.symm hstop
  | cons a as ih =>
    rw [List.flatMap_cons, List.append_assoc] at h
    cases bs with
    | nil => exact absurd h hstop
    | cons b bs =>
      rw [List.flatMap_cons, List.append_assoc] at h
      obtain ⟨rfl, hlater⟩ := hf h
      obtain ⟨rfl, rfl⟩ := ih hlater
      exact ⟨rfl, rfl⟩

theorem isWord_wordKind (s : String) : (Scanner.wordKind s).isWord := by
  unfold Scanner.wordKind
  split
  · rfl
  · split <;> rfl

theorem wordSign_ne (hx : x.kind.isWord = false) : wordSign s ≠ sign x := by
  intro h
  have hkind : Scanner.wordKind s = x.kind := congrArg Prod.fst h
  rw [← hkind, isWord_wordKind] at hx
  cases hx

theorem cancel_names {as bs : List String}
    (h : (as.flatMap fun s => [wordSign s]) ++ sign rbrace :: ss =
      (bs.flatMap fun s => [wordSign s]) ++ sign rbrace :: tt) : as = bs ∧ ss = tt := by
  refine cancel_flatMap (fun h => ?_) (fun h => ?_) h
  · obtain ⟨hword, hlater⟩ := List.cons.inj h
    exact ⟨congrArg Prod.snd hword, hlater⟩
  · exact wordSign_ne rfl (List.cons.inj h).1

theorem cancel_params {as bs : List Param}
    (h : as.flatMap paramSigns ++ sign rparen :: ss = bs.flatMap paramSigns ++ sign rparen :: tt) :
    as = bs ∧ ss = tt := by
  refine cancel_flatMap (fun {a b} _ _ h => ?_) (fun h => ?_) h
  · obtain ⟨hname, h⟩ := List.cons.inj h
    obtain ⟨htype, hlater⟩ := List.cons.inj h
    obtain ⟨_, _⟩ := a
    obtain ⟨_, _⟩ := b
    obtain rfl : _ = _ := congrArg Prod.snd hname
    obtain rfl : _ = _ := congrArg Prod.snd htype
    exact ⟨rfl, hlater⟩
  · exact wordSign_ne rfl (List.cons.inj h).1

/-! ## Declarations -/

/-- The kind that signs begin with. -/
def headKind? (ss : List Sign) : Option Token.Kind := ss.head?.map Prod.fst

/-- The signs of what is listed after an import. -/
def includesSigns : Option Includes → List Sign
  | none => []
  | some .everything => [sign colon, sign lbrace, sign asterisk, sign rbrace]
  | some (.names ns) =>
    sign colon :: sign lbrace :: ((ns.flatMap fun s => [wordSign s]) ++ [sign rbrace])

theorem signs_use {decl : UseDecl} (h : decl.Legal) : signs (usePieces unit d decl) =
    sign (keyword .use_) :: sign (quoted decl.specifier) :: includesSigns decl.includes := by
  obtain ⟨specifier, _ | _ | ns, span⟩ := decl
  · simp [usePieces, includesPieces, includesSigns]
  · simp [usePieces, includesPieces, includesSigns]
  · obtain - | ⟨-, hns⟩ := h.includes _ rfl
    simp [usePieces, includesPieces, includesSigns, signs_entries, signs_words hns]

/-- **What an import lists**, if no colon comes after it. -/
theorem cancel_includes {i j : Option Includes}
    (h : includesSigns i ++ ss = includesSigns j ++ tt) (hss : headKind? ss ≠ some .colon)
    (htt : headKind? tt ≠ some .colon) : i = j ∧ ss = tt := by
  have hstar : ∀ {ns : List String} {ss tt : List Sign}, sign asterisk :: ss ≠
      (ns.flatMap fun s => [wordSign s]) ++ [sign rbrace] ++ tt := by
    intro ns ss tt heq
    cases ns with
    | nil => cases (List.cons.inj heq).1
    | cons n ns => exact wordSign_ne rfl (List.cons.inj heq).1.symm
  rcases i with _ | _ | ns <;> rcases j with _ | _ | ms
  · exact ⟨rfl, h⟩
  · exact absurd (congrArg headKind? h) hss
  · exact absurd (congrArg headKind? h) hss
  · exact absurd (congrArg headKind? h).symm htt
  · exact ⟨rfl, List.append_cancel_left h⟩
  · exact absurd (List.cons.inj (List.cons.inj h).2).2 hstar
  · exact absurd (congrArg headKind? h).symm htt
  · exact absurd (List.cons.inj (List.cons.inj h).2).2.symm hstar
  · simp only [includesSigns, List.cons_append, List.append_assoc, List.cons.injEq, true_and,
      List.nil_append] at h
    obtain ⟨rfl, rfl⟩ := cancel_names h
    exact ⟨rfl, rfl⟩

theorem signs_enum {decl : EnumDecl} (h : decl.Legal) : signs (enumPieces unit d decl) =
    sign (keyword .enum) :: wordSign decl.name :: sign lbrace ::
      ((decl.values.map (·.name)).flatMap (fun s => [wordSign s]) ++ [sign rbrace]) := by
  simp [enumPieces, signs_entries, signs_words h.values, signs_word h.name.isTypeName]

/-- The signs of a return type. -/
def returnsSigns : Option String → List Sign
  | none => []
  | some type => [wordSign type]

theorem signs_head {head : FnHead} (h : head.Legal) : signs (headPieces unit d head) =
    sign (keyword .fn) :: wordSign head.name :: sign lparen ::
      (head.params.flatMap paramSigns ++ sign rparen :: returnsSigns head.returns) := by
  have hreturns : signs (returnsPieces head.returns) = returnsSigns head.returns := by
    have htype := h.returns
    cases hr : head.returns with
    | none => rfl
    | some type =>
      rw [hr] at htype
      rw [returnsPieces, signs_word (htype type rfl)]
      rfl
  simp [headPieces, signs_entries, signs_params h.params, signs_word h.name.isTypeName, hreturns]

/-- **What a function takes and returns**, if a bracket or an arrow comes after it. -/
theorem cancel_head {h₁ h₂ : FnHead} (hlegal₁ : h₁.Legal) (hlegal₂ : h₂.Legal)
    (h : signs (headPieces unit d h₁) ++ ss = signs (headPieces unit d h₂) ++ tt)
    (hss : ∃ x xs, ss = sign x :: xs ∧ x.kind.isWord = false)
    (htt : ∃ x xs, tt = sign x :: xs ∧ x.kind.isWord = false) : h₁ = h₂ ∧ ss = tt := by
  rw [signs_head hlegal₁, signs_head hlegal₂] at h
  simp only [List.cons_append, List.append_assoc, List.cons.injEq, true_and] at h
  obtain ⟨hname, h⟩ := h
  obtain ⟨hparams, hreturns⟩ := cancel_params h
  have hbraces₁ := hlegal₁.braces
  have hbraces₂ := hlegal₂.braces
  obtain ⟨x, xs, rfl, hx⟩ := hss
  obtain ⟨y, ys, rfl, hy⟩ := htt
  obtain ⟨name₁, params₁, returns₁, arrow₁⟩ := h₁
  obtain ⟨name₂, params₂, returns₂, arrow₂⟩ := h₂
  obtain rfl : name₁ = name₂ := congrArg Prod.snd hname
  obtain rfl : params₁ = params₂ := hparams
  obtain rfl : arrow₁ = arrow₂ := hbraces₁.trans hbraces₂.symm
  rcases returns₁ with _ | type₁ <;> rcases returns₂ with _ | type₂
  · exact ⟨rfl, hreturns⟩
  · exact absurd (List.cons.inj hreturns).1.symm (wordSign_ne hx)
  · exact absurd (List.cons.inj hreturns).1 (wordSign_ne hy)
  · obtain ⟨htype, hlater⟩ := List.cons.inj hreturns
    obtain rfl : type₁ = type₂ := congrArg Prod.snd htype
    exact ⟨rfl, hlater⟩

/-! ## Lists of declarations -/

variable {n m : Node} {ns ms body : List Node}

/-- The signs of the declarations of a list of nodes. -/
def declSigns (unit : List Char) (d : Nat) (ns : List Node) : List Sign :=
  (declPieces unit d ns).flatMap signs

theorem declSigns_of_trivia (h : n.isTrivia) :
    declSigns unit d (n :: ns) = declSigns unit d ns := by
  rw [declSigns, declPieces_of_trivia h, declSigns]

theorem declSigns_of_decl (h : n.isTrivia = false) :
    declSigns unit d (n :: ns) = signs (nodePieces unit d n) ++ declSigns unit d ns := by
  rw [declSigns, declPieces_of_decl h, List.flatMap_cons, declSigns]

theorem declSigns_of_no_declarations (h : (declarations ns).length = 0) :
    declSigns unit d ns = [] := by
  rw [← length_declPieces unit d, List.length_eq_zero_iff] at h
  rw [declSigns, h]
  rfl

/-- A body is written after an arrow or between braces. -/
theorem signs_body : signs (bodyPieces unit d (declarations body).length (declPieces unit d body)
      (declPieces unit (d + 1) body)) =
    if (declarations body).length = 1 then sign arrow :: declSigns unit d body
    else sign lbrace :: (declSigns unit (d + 1) body ++ [sign rbrace]) := by
  rcases hcount : (declarations body).length with _ | _ | count
  · simp [bodyPieces, declSigns_of_no_declarations hcount]
  · simp [bodyPieces, signs_flatten, declSigns]
  · simp [bodyPieces, signs_lines, declSigns]

theorem exists_body_sign (body : List Node) (ss : List Sign) : ∃ x tt,
    signs (bodyPieces unit d (declarations body).length (declPieces unit d body)
      (declPieces unit (d + 1) body)) ++ ss = sign x :: tt ∧ x.kind.isWord = false := by
  rw [signs_body]
  split
  · exact ⟨arrow, _, rfl, rfl⟩
  · exact ⟨lbrace, _, rfl, rfl⟩

/-- Every declaration begins with a keyword. -/
theorem headKind?_of_decl (h : n.isTrivia = false) (unit : List Char) (d : Nat)
    (ss : List Sign) : ∃ k, headKind? (signs (nodePieces unit d n) ++ ss) = some (.keyword k) := by
  cases n with
  | use_ decl => exact ⟨.use_, rfl⟩
  | enum decl => exact ⟨.enum, rfl⟩
  | fn head body span => exact ⟨.fn, rfl⟩
  | comment | newline | spacing => cases h

theorem headKind?_declSigns (ns : List Node) (hss : headKind? ss ≠ some .colon) :
    headKind? (declSigns unit d ns ++ ss) ≠ some .colon := by
  induction ns with
  | nil => exact hss
  | cons n ns ih =>
    cases h : n.isTrivia
    · obtain ⟨k, hk⟩ := headKind?_of_decl h unit d (declSigns unit d ns ++ ss)
      rw [declSigns_of_decl h, List.append_assoc, hk]
      exact nofun
    · rw [declSigns_of_trivia h]
      exact ih

/-- Declarations end here: at a closing brace or with everything else. -/
def Stops (ss : List Sign) : Prop := headKind? ss = none ∨ headKind? ss = some .rbrace

theorem Stops.ne_colon (h : Stops ss) : headKind? ss ≠ some .colon := by
  rcases h with h | h <;> rw [h] <;> exact nofun

theorem Stops.not_decl (h : Stops ss) (hn : n.isTrivia = false) :
    ss ≠ signs (nodePieces unit d n) ++ tt := by
  rintro rfl
  obtain ⟨k, hk⟩ := headKind?_of_decl hn unit d tt
  rcases h with h | h <;> rw [hk] at h <;> cases h

/-- A list of nodes without declarations, or with a first declaration and others. -/
theorem exists_first (h : Legal ms) :
    ((declarations ms).length = 0) ∨
      ∃ m rest, m.isTrivia = false ∧ Legal (m :: rest) ∧ SameShape (m :: rest) ms ∧
        (declarations ms).length = (declarations rest).length + 1 ∧
        ∀ unit d, declSigns unit d ms = declSigns unit d (m :: rest) := by
  induction h with
  | nil => exact .inl rfl
  | @trivia n ns isTrivia later ih =>
    rw [declarations_of_trivia isTrivia]
    rcases ih with hnone | ⟨m, rest, hm, hlegal, hshape, hcount, hsigns⟩
    · exact .inl hnone
    · refine .inr ⟨m, rest, hm, hlegal, hshape.trans (sameShape_trivia isTrivia ns).symm, hcount,
        fun unit d => ?_⟩
      rw [declSigns_of_trivia isTrivia, hsigns]
  | use_ decl later => exact .inr ⟨_, _, rfl, .use_ decl later, rfl, rfl, fun _ _ => rfl⟩
  | enum decl later => exact .inr ⟨_, _, rfl, .enum decl later, rfl, rfl, fun _ _ => rfl⟩
  | fn isHead isBody later =>
    exact .inr ⟨_, _, rfl, .fn isHead isBody later, rfl, rfl, fun _ _ => rfl⟩

/-- Legal nodes with the same signs in front of something have the same declarations, if as many
declarations are counted or declarations end here. -/
def Told (unit : List Char) (ns : List Node) : Prop :=
  ∀ {ms : List Node} {d : Nat} {ss tt : List Sign}, Legal ms →
    declSigns unit d ns ++ ss = declSigns unit d ms ++ tt → headKind? ss ≠ some .colon →
    headKind? tt ≠ some .colon →
    (declarations ns).length = (declarations ms).length ∨ Stops ss ∧ Stops tt →
    SameShape ns ms ∧ ss = tt

theorem told_nil : Told unit [] := by
  intro ms d ss tt hlegal h _ _ hcount
  rcases exists_first hlegal with hnone | ⟨m, rest, hm, -, -, hlength, hsigns⟩
  · refine ⟨sameShape_nil_of_no_declarations hnone, ?_⟩
    rwa [declSigns_of_no_declarations hnone] at h
  · rw [hsigns, declSigns_of_decl hm, List.append_assoc] at h
    rcases hcount with hcount | ⟨hss, -⟩
    · rw [hlength] at hcount
      cases hcount
    · exact absurd h (hss.not_decl hm)

theorem told_trivia (hn : n.isTrivia) (h : Told unit ns) : Told unit (n :: ns) := by
  intro ms d ss tt hlegal heq hss htt hcount
  rw [declSigns_of_trivia hn] at heq
  rw [declarations_of_trivia hn] at hcount
  obtain ⟨hshape, rfl⟩ := h hlegal heq hss htt hcount
  exact ⟨(sameShape_trivia hn ns).trans hshape, rfl⟩

/-- **A declaration tells itself**, given that it can be told from any other. -/
theorem told_decl (hn : n.isTrivia = false)
    (hdecl : ∀ {m : Node} {d : Nat} {ss tt : List Sign}, m.isTrivia = false → Legal [m] →
      signs (nodePieces unit d n) ++ ss = signs (nodePieces unit d m) ++ tt →
      headKind? ss ≠ some .colon → headKind? tt ≠ some .colon → SameShape [n] [m] ∧ ss = tt)
    (h : Told unit ns) : Told unit (n :: ns) := by
  intro ms d ss tt hlegal heq hss htt hcount
  have hlength : (declarations (n :: ns)).length = (declarations ns).length + 1 := by
    rw [declarations_of_decl hn, List.length_cons]
  rw [declSigns_of_decl hn, List.append_assoc] at heq
  rcases exists_first hlegal with hnone | ⟨m, rest, hm, hrest, hshape, hlength', hsigns⟩
  · rw [declSigns_of_no_declarations hnone] at heq
    rcases hcount with hcount | ⟨-, htt⟩
    · rw [hlength, hnone] at hcount
      cases hcount
    · exact absurd heq.symm (htt.not_decl hn)
  · rw [hsigns, declSigns_of_decl hm, List.append_assoc] at heq
    rw [hlength, hlength', Nat.add_right_cancel_iff] at hcount
    have hlegal' : Legal [m] ∧ Legal rest := by
      cases hrest with
      | trivia isTrivia => rw [hm] at isTrivia; cases isTrivia
      | use_ decl later => exact ⟨.use_ decl .nil, later⟩
      | enum decl later => exact ⟨.enum decl .nil, later⟩
      | fn isHead isBody later => exact ⟨.fn isHead isBody .nil, later⟩
    obtain ⟨hfirst, heq⟩ := hdecl hm hlegal'.1 heq (headKind?_declSigns ns hss)
      (headKind?_declSigns rest htt)
    obtain ⟨hlater, rfl⟩ := h hlegal'.2 heq hss htt hcount
    exact ⟨(hfirst.append hlater).trans hshape, rfl⟩

/-- **A body tells its declarations.** -/
theorem told_body (h : Told unit body) (hms : Legal ms)
    (heq : signs (bodyPieces unit d (declarations body).length (declPieces unit d body)
        (declPieces unit (d + 1) body)) ++ ss =
      signs (bodyPieces unit d (declarations ms).length (declPieces unit d ms)
        (declPieces unit (d + 1) ms)) ++ tt)
    (hss : headKind? ss ≠ some .colon) (htt : headKind? tt ≠ some .colon) :
    SameShape body ms ∧ ss = tt := by
  have hstops : ∀ {ss}, Stops (sign rbrace :: ss) := .inr rfl
  rw [signs_body, signs_body] at heq
  split at heq <;> split at heq
  · exact h hms (List.cons.inj heq).2 hss htt (.inl (by omega))
  · cases (List.cons.inj heq).1
  · cases (List.cons.inj heq).1
  · simp only [List.cons_append, List.append_assoc, List.cons.injEq, true_and] at heq
    obtain ⟨hshape, hlater⟩ := h hms heq hstops.ne_colon hstops.ne_colon (.inr ⟨hstops, hstops⟩)
    exact ⟨hshape, (List.cons.inj hlater).2⟩

theorem told_of_legal (h : Legal ns) : Told unit ns := by
  induction h with
  | nil => exact told_nil
  | trivia isTrivia _ ih => exact told_trivia isTrivia ih
  | @use_ decl ns hdecl _ ih =>
    refine told_decl rfl (fun {m d ss tt} hm hlegal heq hss htt => ?_) ih
    cases hlegal with
    | trivia isTrivia => rw [hm] at isTrivia; cases isTrivia
    | @use_ decl' _ hdecl' =>
      rw [nodePieces, nodePieces, signs_use hdecl, signs_use hdecl'] at heq
      simp only [List.cons_append, List.cons.injEq, true_and, sign_quoted, Prod.mk.injEq] at heq
      obtain ⟨hspecifier, heq⟩ := heq
      obtain ⟨hincludes, rfl⟩ := cancel_includes heq hss htt
      refine ⟨?_, rfl⟩
      show [Node.use_ ⟨decl.specifier, decl.includes, nowhere⟩] =
        [Node.use_ ⟨decl'.specifier, decl'.includes, nowhere⟩]
      rw [hspecifier, hincludes]
    | enum | fn => cases (List.cons.inj heq).1
  | @enum decl ns hdecl _ ih =>
    refine told_decl rfl (fun {m d ss tt} hm hlegal heq hss htt => ?_) ih
    cases hlegal with
    | trivia isTrivia => rw [hm] at isTrivia; cases isTrivia
    | @enum decl' _ hdecl' =>
      rw [nodePieces, nodePieces, signs_enum hdecl, signs_enum hdecl'] at heq
      simp only [List.cons_append, List.append_assoc, List.cons.injEq, true_and,
        List.nil_append] at heq
      obtain ⟨hname, heq⟩ := heq
      obtain ⟨hvalues, rfl⟩ := cancel_names heq
      have hname : decl.name = decl'.name := congrArg Prod.snd hname
      have hvalues : (decl.values.map fun v => (⟨v.name, nowhere⟩ : EnumValue)) =
          decl'.values.map fun v => ⟨v.name, nowhere⟩ := by
        simpa [Function.comp_def] using
          congrArg (List.map fun s => (⟨s, nowhere⟩ : EnumValue)) hvalues
      refine ⟨?_, rfl⟩
      show [Node.enum ⟨decl.name, decl.values.map _, nowhere⟩] =
        [Node.enum ⟨decl'.name, decl'.values.map _, nowhere⟩]
      rw [hname, hvalues]
    | use_ | fn => cases (List.cons.inj heq).1
  | @fn head body ns span isHead _ _ ihBody ih =>
    refine told_decl rfl (fun {m d ss tt} hm hlegal heq hss htt => ?_) ih
    cases hlegal with
    | trivia isTrivia => rw [hm] at isTrivia; cases isTrivia
    | @fn head' body' _ span' isHead' isBody' =>
      rw [nodePieces, nodePieces, signs_append, signs_append, List.append_assoc,
        List.append_assoc] at heq
      obtain ⟨rfl, hbody⟩ := cancel_head isHead isHead' heq (exists_body_sign body ss)
        (exists_body_sign body' tt)
      obtain ⟨hshape, rfl⟩ := told_body ihBody isBody' hbody hss htt
      exact ⟨hshape.fn, rfl⟩
    | use_ | enum => cases (List.cons.inj heq).1

/-! ## Texts -/

/-- What the pieces of a program say is what its declarations say. -/
theorem signs_programPieces (unit : List Char) (ns : List Node) :
    signs (programPieces unit ns) = declSigns unit 0 ns := by
  rw [programPieces, declSigns]
  induction declPieces unit 0 ns with
  | nil => rfl
  | cons xs xss ih => simp [ih]

/-- **Legal trees with the same canonical text have the same declarations.** -/
theorem sameShape_of_nodesText (hunit : IsUnit unit) (h : Legal ns) (hms : Legal ms)
    (heq : nodesText unit ns = nodesText unit ms) : SameShape ns ms := by
  obtain ⟨src, hchars⟩ : ∃ src : Source, src.chars = nodesText unit ns :=
    ⟨⟨"", String.ofList (nodesText unit ns)⟩, String.toList_ofList⟩
  have htokens := tokens?_text hunit h hchars
  rw [tokens?_text hunit hms (hchars.trans heq)] at htokens
  have hplace := List.append_cancel_right (Except.ok.inj htokens)
  have hsigns := congrArg tokenSigns hplace
  rw [tokenSigns_place, tokenSigns_place, signs_programPieces, signs_programPieces] at hsigns
  have hstops : Stops [] := .inl rfl
  have htold : declSigns unit 0 ns ++ [] = declSigns unit 0 ms ++ [] := by rw [hsigns]
  exact (told_of_legal h hms htold hstops.ne_colon hstops.ne_colon (.inr ⟨hstops, hstops⟩)).1

end Layout

namespace Source

/-- **Printing loses no declaration.** Two sources with the same canonical text in some style have
the same declarations up to spans, whether or not some are written after arrows. -/
theorem eraseSpans_eq_of_format_eq (style : Layout.Style) (src₁ src₂ : Source) (text : String)
    (h₁ : src₁.format style = .ok text) (h₂ : src₂.format style = .ok text) :
    ∃ p₁ p₂, src₁.parse = .ok p₁ ∧ src₂.parse = .ok p₂ ∧
      eraseSpans p₁.strip.children = eraseSpans p₂.strip.children := by
  obtain ⟨p₁, hp₁, rfl⟩ := exists_parse_of_format h₁
  obtain ⟨p₂, hp₂, htext⟩ := exists_parse_of_format h₂
  exact ⟨p₁, p₂, hp₁, hp₂, Layout.sameShape_of_nodesText (Layout.isUnit_unit style)
    (legal_of_parse hp₁) (legal_of_parse hp₂) (String.ofList_injective htext)⟩

/-- The same functions, on one line and with a comment. -/
theorem eraseSpans_eq_of_format_eq_arrow :
    ∃ p₁ p₂, (⟨"a", "fn f() \x7bfn g() \x7buse 'a'\x7d\x7d"⟩ : Source).parse = .ok p₁ ∧
      (⟨"b", "fn f()\x7b # g\nfn g() \x7buse 'a'\x7d\x7d"⟩ : Source).parse = .ok p₂ ∧
      eraseSpans p₁.strip.children = eraseSpans p₂.strip.children :=
  eraseSpans_eq_of_format_eq .standard _ _ "fn f() -> fn g() -> use 'a'\n\n" (by decide +kernel)
    (by decide +kernel)

end Source

end Curly
