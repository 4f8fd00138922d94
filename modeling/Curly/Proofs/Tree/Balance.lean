import Curly.Proofs.Token.LineCut
import Curly.Proofs.Tree.Grammar
import Mathlib.Algebra.Order.Ring.Int

/-!
# Brackets

The braces and the parentheses of a program are balanced (`Items.balanced`), and what they come to
at a line end tells where the line end stands: between two items, in the parameter list of a
function that no braces are open around, or inside braces (`Items.lineCut`). Line ends are nowhere
else.
-/

namespace Curly

/-- Whether a token of this kind opens or closes something. -/
def Token.Kind.isBracket : Token.Kind → Bool
  | .lbrace | .rbrace | .lparen | .rparen => true
  | _ => false

/-- How many more of the tokens are of the one kind than of the other. -/
def Token.excess (opening closing : Token.Kind) (ts : List Token) : Int :=
  ts.countP (·.kind == opening) - ts.countP (·.kind == closing)

namespace Grammar

open Token

variable {ts us vs : List Token} {t : Token} {kind opening closing : Token.Kind}
  {nodes : List Node}

@[simp] theorem excess_nil : excess opening closing [] = 0 := rfl

@[simp] theorem excess_cons : excess opening closing (t :: ts) = excess opening closing ts +
    ((if t.kind = opening then 1 else 0) - if t.kind = closing then 1 else 0) := by
  simp only [excess, List.countP_cons, beq_iff_eq]
  push_cast
  omega

@[simp] theorem excess_append :
    excess opening closing (ts ++ us) = excess opening closing ts + excess opening closing us := by
  simp only [excess, List.countP_append]
  push_cast
  omega

/-! ## Tokens that are no brackets -/

/-- None of the tokens opens or closes anything. -/
def Flat (ts : List Token) : Prop := ∀ t ∈ ts, t.kind.isBracket = false

@[simp] theorem flat_nil : Flat [] := nofun

@[simp] theorem flat_cons : Flat (t :: ts) ↔ t.kind.isBracket = false ∧ Flat ts :=
  List.forall_mem_cons

@[simp] theorem flat_append : Flat (ts ++ us) ↔ Flat ts ∧ Flat us := List.forall_mem_append

theorem Flat.countP_eq_zero (h : Flat ts) (hkind : kind.isBracket) :
    ts.countP (·.kind == kind) = 0 := by
  refine List.countP_eq_zero.2 fun t ht => ?_
  rw [beq_iff_eq]
  rintro rfl
  rw [h t ht] at hkind
  cases hkind

theorem Flat.excess_eq (h : Flat ts) (hopening : opening.isBracket) (hclosing : closing.isBracket) :
    excess opening closing ts = 0 := by
  rw [excess, h.countP_eq_zero hopening, h.countP_eq_zero hclosing]
  rfl

theorem Flat.braces (h : Flat ts) : excess .lbrace .rbrace ts = 0 := h.excess_eq rfl rfl

theorem Flat.parens (h : Flat ts) : excess .lparen .rparen ts = 0 := h.excess_eq rfl rfl

theorem Spaces.flat (h : Spaces ts) : Flat ts := fun t ht => by rw [h t ht]; rfl

theorem not_isBracket_of_isTrivia (h : kind.isTrivia) : kind.isBracket = false := by
  cases kind <;> first | rfl | cases h

theorem Trivia.flat (h : Trivia ts) : Flat ts := fun t ht => not_isBracket_of_isTrivia (h t ht)

theorem Separators.flat (h : Separators ts) : Flat ts := by
  intro t ht
  rcases h t ht with htrivia | hcomma
  · exact not_isBracket_of_isTrivia htrivia
  · rw [hcomma]
    rfl

theorem IsType.not_isBracket (h : IsType t) : t.kind.isBracket = false := by
  rcases h with h | ⟨b, h⟩ <;> rw [h] <;> rfl

theorem Spread.flat {Gap : List Token → Prop} {names : List Token}
    (hgap : ∀ {ts}, Gap ts → Flat ts) (h : Spread Gap ts names) : Flat ts := by
  induction h with
  | last isGap => exact hgap isGap
  | name isGap isName _ ih =>
    rw [flat_append, flat_cons, isName]
    exact ⟨hgap isGap, rfl, ih⟩

theorem Entries.flat {entries : Includes} (h : Entries ts entries) : Flat ts := by
  cases h with
  | everything gapBefore isStar gapAfter =>
    simp only [Token.isOperator, Bool.and_eq_true, beq_iff_eq] at isStar
    rw [flat_append, flat_cons, isStar.1]
    exact ⟨gapBefore.flat, rfl, gapAfter.flat⟩
  | names spread => exact spread.flat Separators.flat

theorem Params.flat {params : List Param} (h : Params ts params) : Flat ts := by
  induction h with
  | last isGap => exact isGap.flat
  | param isGap isName isGap₁ isType _ ih =>
    rw [flat_append, flat_cons, flat_append, flat_cons, isName]
    exact ⟨isGap.flat, rfl, isGap₁.flat, isType.not_isBracket, ih⟩

theorem Returns.flat {returns : Option String} (h : Returns ts returns) : Flat ts := by
  cases h with
  | none isGap => exact isGap.flat
  | some isGap isType isGap₁ => simp [isGap.flat, isGap₁.flat, isType.not_isBracket]

/-! ## Balanced tokens -/

/-- Nothing is open after the tokens that was not open before. -/
structure Balanced (ts : List Token) : Prop where
  braces : excess .lbrace .rbrace ts = 0
  parens : excess .lparen .rparen ts = 0

theorem balanced_nil : Balanced [] := ⟨rfl, rfl⟩

theorem Flat.balanced (h : Flat ts) : Balanced ts := ⟨h.braces, h.parens⟩

theorem Balanced.append (h : Balanced ts) (h' : Balanced us) : Balanced (ts ++ us) := by
  constructor <;> simp [h.braces, h.parens, h'.braces, h'.parens]

theorem Use.balanced {decl : UseDecl} (h : Use ts decl) : Balanced ts := by
  cases h with
  | plain isUse isGap isString =>
    exact Flat.balanced (by simp [isUse, isString, isGap.flat, Kind.isBracket])
  | including isUse isGap isString isGap₁ isColon isGap₂ isOpening listed isClosing =>
    constructor <;>
      simp [isUse, isString, isColon, isOpening, isClosing, isGap.flat.braces, isGap.flat.parens,
        isGap₁.flat.braces, isGap₁.flat.parens, isGap₂.flat.braces, isGap₂.flat.parens,
        listed.flat.braces, listed.flat.parens]

theorem Enum.balanced {decl : EnumDecl} (h : Enum ts decl) : Balanced ts := by
  cases h with
  | intro isEnum isGap isName isGap₁ isOpening spread isClosing =>
    have hspread := spread.flat Trivia.flat
    constructor <;>
      simp [isEnum, isName, isOpening, isClosing, isGap.flat.braces, isGap.flat.parens,
        isGap₁.flat.braces, isGap₁.flat.parens, hspread.braces, hspread.parens]

theorem Head.balanced {start : Position} {head : FnHead} (h : Head ts start head) :
    Balanced ts := by
  cases h with
  | intro isFn isGap isName isGap₁ isOpening listed isClosing isReturns =>
    constructor <;>
      simp [isFn, isName, isOpening, isClosing, isGap.flat.braces, isGap.flat.parens,
        isGap₁.flat.braces, isGap₁.flat.parens, listed.flat.braces, listed.flat.parens,
        isReturns.flat.braces, isReturns.flat.parens]

/-- **The brackets of a program are balanced.** -/
theorem Items.balanced (h : Items ts nodes) : Balanced ts := by
  induction h with
  | nil => exact balanced_nil
  | spacing ht _ ih | newline ht _ ih | comment ht _ ih =>
    constructor <;> simp [ht, ih.braces, ih.parens]
  | use_ isUse _ ih => exact isUse.balanced.append ih
  | enum isEnum _ ih => exact isEnum.balanced.append ih
  | fn isHead isOpening _ isClosing _ ihBody ih =>
    constructor <;>
      simp [isOpening, isClosing, isHead.balanced.braces, isHead.balanced.parens, ihBody.braces,
        ihBody.parens, ih.braces, ih.parens]

/-! ## Line ends inside an item -/

/-- No line ends in the tokens. -/
def OneLine (ts : List Token) : Prop := ∀ t ∈ ts, t.kind ≠ .newline

@[simp] theorem oneLine_nil : OneLine [] := nofun

@[simp] theorem oneLine_cons : OneLine (t :: ts) ↔ t.kind ≠ .newline ∧ OneLine ts :=
  List.forall_mem_cons

@[simp] theorem oneLine_append : OneLine (ts ++ us) ↔ OneLine ts ∧ OneLine us :=
  List.forall_mem_append

theorem Spaces.oneLine (h : Spaces ts) : OneLine ts := fun t ht => by rw [h t ht]; exact nofun

theorem IsType.ne_newline (h : IsType t) : t.kind ≠ .newline := by
  rcases h with h | ⟨b, h⟩ <;> rw [h] <;> exact nofun

theorem Returns.oneLine {returns : Option String} (h : Returns ts returns) : OneLine ts := by
  cases h with
  | none isGap => exact isGap.oneLine
  | some isGap isType isGap₁ => simp [isGap.oneLine, isGap₁.oneLine, isType.ne_newline]

variable {a b xs ys inside : List Token} {left right : Token}

/-- Where no line ends in `xs`, a part that ends a line is empty or goes past it. -/
theorem exists_past (h : a ++ b = xs ++ ys) (ha : EndsLine a) (hxs : OneLine xs) :
    a = [] ∨ ∃ a', a = xs ++ a' ∧ a' ++ b = ys ∧ EndsLine a' := by
  rcases List.append_eq_append_iff.1 h with ⟨c, rfl, rfl⟩ | ⟨c, rfl, rfl⟩
  · rcases List.eq_nil_or_concat a with rfl | ⟨before, t, rfl⟩
    · exact .inl rfl
    · rw [List.concat_eq_append] at ha hxs
      have ht : t.kind = .newline := ha t (by simp)
      exact absurd ht (hxs t (by simp))
  · exact .inr ⟨c, rfl, rfl, ha.of_append⟩

/-- A part that ends a line, of tokens that end between braces, ends between these or before the
first line end. -/
theorem exists_inside (h : a ++ b = xs ++ left :: (inside ++ [right])) (ha : EndsLine a)
    (hb : b ≠ []) (hxs : OneLine xs) (hleft : left.kind = .lbrace) :
    a = [] ∨ ∃ a' b', a = xs ++ left :: a' ∧ inside = a' ++ b' ∧ EndsLine a' := by
  rw [List.append_cons] at h
  rcases exists_past h ha (by simp [hxs, hleft]) with rfl | ⟨a', rfl, ha', hends⟩
  · exact .inl rfl
  · obtain ⟨b', t, rfl⟩ := (List.eq_nil_or_concat b).resolve_left hb
    rw [List.concat_eq_append, ← List.append_assoc] at ha'
    obtain ⟨rfl, -⟩ := List.append_inj' ha' rfl
    exact .inr ⟨a', b', by simp, rfl, hends⟩

/-- Inside a flat list between braces, the first of them is open. -/
theorem braces_pos_of_flat (h : a ++ b = xs ++ left :: (inside ++ [right])) (ha : EndsLine a)
    (hb : b ≠ []) (hxs : OneLine xs) (hleft : left.kind = .lbrace) (hflat : Flat xs)
    (hinside : Flat inside) : a = [] ∨ 0 < excess .lbrace .rbrace a := by
  rcases exists_inside h ha hb hxs hleft with rfl | ⟨a', b', rfl, rfl, -⟩
  · exact .inl rfl
  · refine .inr ?_
    simp [hleft, hflat.braces, (flat_append.1 hinside).1.braces]

theorem Use.braces_pos {decl : UseDecl} (h : Use (a ++ b) decl) (ha : EndsLine a) (hb : b ≠ []) :
    a = [] ∨ 0 < excess .lbrace .rbrace a := by
  generalize htokens : a ++ b = ts at h
  cases h with
  | @plain keyword string gap isUse isGap isString =>
    rw [← List.append_nil (keyword :: _)] at htokens
    refine (exists_past htokens ha (by simp [isUse, isString, isGap.oneLine])).imp_right ?_
    rintro ⟨a', -, hnil, -⟩
    exact absurd (List.append_eq_nil_iff.1 hnil).2 hb
  | @including keyword string colon opening closing gap gap₁ gap₂ ts _ isUse isGap isString isGap₁
      isColon isGap₂ isOpening listed =>
    have hsplit : a ++ b = (keyword :: (gap ++ string :: (gap₁ ++ colon :: gap₂))) ++
        opening :: (ts ++ [closing]) := by
      rw [htokens]
      simp
    exact braces_pos_of_flat hsplit ha hb
      (by simp [isUse, isString, isColon, isGap.oneLine, isGap₁.oneLine, isGap₂.oneLine]) isOpening
      (by simp [isUse, isString, isColon, isGap.flat, isGap₁.flat, isGap₂.flat, Kind.isBracket])
      listed.flat

theorem Enum.braces_pos {decl : EnumDecl} (h : Enum (a ++ b) decl) (ha : EndsLine a)
    (hb : b ≠ []) : a = [] ∨ 0 < excess .lbrace .rbrace a := by
  generalize htokens : a ++ b = ts at h
  cases h with
  | @intro keyword name opening closing gap gap₁ ts _ isEnum isGap isName isGap₁ isOpening spread =>
    have hsplit : a ++ b = (keyword :: (gap ++ name :: gap₁)) ++ opening :: (ts ++ [closing]) := by
      rw [htokens]
      simp
    exact braces_pos_of_flat hsplit ha hb
      (by simp [isEnum, isName, isGap.oneLine, isGap₁.oneLine]) isOpening
      (by simp [isEnum, isName, isGap.flat, isGap₁.flat, Kind.isBracket])
      (spread.flat Trivia.flat)

/-! ## Line ends in a program -/

/-- The tokens of items, and then of a function up to a place in its parameter list. -/
inductive OpenParams : List Token → Prop
  | intro {before gap gap₁ inside later : List Token} {keyword name opening : Token}
    {nodes : List Node} {params : List Param} (items : Items before nodes)
    (isFn : keyword.kind = .keyword .fn) (isGap : Spaces gap) (isName : name.kind = .identifier)
    (isGap₁ : Spaces gap₁) (isOpening : opening.kind = .lparen)
    (listed : Params (inside ++ later) params) :
    OpenParams (before ++ keyword :: (gap ++ name :: (gap₁ ++ opening :: inside)))

theorem OpenParams.after (h : OpenParams us) (hts : Items ts nodes) : OpenParams (ts ++ us) := by
  cases h with
  | intro items isFn isGap isName isGap₁ isOpening listed =>
    rw [← List.append_assoc]
    exact .intro (hts.append items) isFn isGap isName isGap₁ isOpening listed

theorem OpenParams.braces (h : OpenParams us) : excess .lbrace .rbrace us = 0 := by
  cases h with
  | intro items isFn isGap isName isGap₁ isOpening listed =>
    simp [isFn, isName, isOpening, items.balanced.braces, isGap.flat.braces, isGap₁.flat.braces,
      (flat_append.1 listed.flat).1.braces]

theorem OpenParams.parens (h : OpenParams us) : excess .lparen .rparen us = 1 := by
  cases h with
  | intro items isFn isGap isName isGap₁ isOpening listed =>
    simp [isFn, isName, isOpening, items.balanced.parens, isGap.flat.parens, isGap₁.flat.parens,
      (flat_append.1 listed.flat).1.parens]

/-- Where the tokens `us ++ vs` of the nodes are cut. -/
inductive LineCut (us vs : List Token) (nodes : List Node) : Prop
  | between {ns ms : List Node} (split : nodes = ns ++ ms) (upper : Items us ns)
    (lower : Items vs ms) : LineCut us vs nodes
  | inParams (isOpen : OpenParams us) : LineCut us vs nodes
  | inBraces (isOpen : 0 < excess .lbrace .rbrace us) : LineCut us vs nodes

theorem LineCut.braces_nonneg (h : LineCut us vs nodes) : 0 ≤ excess .lbrace .rbrace us := by
  cases h with
  | between _ upper => exact upper.balanced.braces.ge
  | inParams isOpen => exact isOpen.braces.ge
  | inBraces isOpen => exact isOpen.le

theorem LineCut.after {ns : List Node} (h : LineCut us vs nodes) (hts : Items ts ns) :
    LineCut (ts ++ us) vs (ns ++ nodes) := by
  cases h with
  | between split upper lower =>
    exact .between (by rw [split, List.append_assoc]) (hts.append upper) lower
  | inParams isOpen => exact .inParams (isOpen.after hts)
  | inBraces isOpen =>
    refine .inBraces ?_
    rw [excess_append, hts.balanced.braces]
    simpa using isOpen

/-- What is open where a line ends in a function, given where its body is cut. -/
theorem Head.openParams_or_braces_pos {hs bs : List Token} {start : Position} {head : FnHead}
    {body : List Node} (h : a ++ b = hs ++ left :: (bs ++ [right]))
    (isHead : Head hs start head) (isOpening : left.kind = .lbrace)
    (hbody : ∀ a' b', a' ++ b' = bs → EndsLine a' → LineCut a' b' body) (ha : EndsLine a)
    (hb : b ≠ []) : a = [] ∨ OpenParams a ∨ 0 < excess .lbrace .rbrace a := by
  cases isHead with
  | @intro keyword name opening closing gap gap₁ ps rs params _ isFn isGap isName isGap₁ isParen
      listed isClosing isReturns =>
    have hopen : ∀ {inside later}, ps = inside ++ later →
        OpenParams (keyword :: (gap ++ name :: (gap₁ ++ [opening])) ++ inside) := by
      rintro inside later rfl
      have hparams := OpenParams.intro .nil isFn isGap isName isGap₁ isParen listed
      simpa using hparams
    have hsplit : a ++ b = keyword :: (gap ++ name :: (gap₁ ++ [opening])) ++
        (ps ++ (closing :: rs ++ left :: (bs ++ [right]))) := by
      rw [h]
      simp
    rcases exists_past hsplit ha (by simp [isFn, isName, isParen, isGap.oneLine, isGap₁.oneLine])
      with rfl | ⟨a₁, rfl, h₁, hends⟩
    · exact .inl rfl
    · refine .inr ?_
      rcases List.append_eq_append_iff.1 h₁ with ⟨c, hps, -⟩ | ⟨c, rfl, hc⟩
      · exact .inl (hopen hps)
      · rcases exists_inside hc.symm hends.of_append hb (by simp [isClosing, isReturns.oneLine])
          isOpening with rfl | ⟨a', b', rfl, rfl, hends'⟩
        · rw [List.append_nil]
          exact .inl (hopen (List.append_nil ps).symm)
        · have hnonneg := (hbody a' b' rfl hends').braces_nonneg
          refine .inr ?_
          simp only [isFn, isName, isParen, isClosing, isOpening, isGap.flat.braces,
            isGap₁.flat.braces, listed.flat.braces, isReturns.flat.braces, excess_append,
            excess_cons, excess_nil, reduceCtorEq, ↓reduceIte]
          omega

/-- An item before the rest, which is cut somewhere if the item is not. -/
theorem lineCut_item {n : Node} (h : us ++ vs = xs ++ ts) (hus : EndsLine us)
    (hitem : Items xs [n]) (later : Items ts nodes)
    (hcut : ∀ a b, a ++ b = xs → EndsLine a → b ≠ [] → a = [] ∨ LineCut a (b ++ ts) (n :: nodes))
    (hlater : ∀ us' vs', us' ++ vs' = ts → EndsLine us' → LineCut us' vs' nodes) :
    LineCut us vs (n :: nodes) := by
  rcases List.append_eq_append_iff.1 h with ⟨c, hxs, rfl⟩ | ⟨c, rfl, hts⟩
  · by_cases hc : c = []
    · subst hc
      rw [List.append_nil] at hxs
      subst hxs
      exact .between List.singleton_append.symm hitem (by simpa using later)
    · rcases hcut us c hxs.symm hus hc with rfl | hcut
      · rw [List.nil_append] at hxs
        subst hxs
        exact .between (List.nil_append _).symm .nil (hitem.append later)
      · exact hcut
  · exact (hlater c vs hts.symm hus.of_append).after hitem

/-- **A program is cut at a line end** between two items, in a parameter list, or inside
braces. -/
theorem Items.lineCut (h : Items (us ++ vs) nodes) (hus : EndsLine us) : LineCut us vs nodes := by
  generalize htokens : us ++ vs = all at h
  -- A single token is not cut.
  have htoken : ∀ {t a b} {c : List Token} {n : Node} {ns : List Node}, a ++ b = [t] → b ≠ [] →
      a = [] ∨ LineCut a (b ++ c) (n :: ns) := by
    intro t a b c n ns hab hb
    cases a with
    | nil => exact .inl rfl
    | cons u a =>
      rw [List.cons_append] at hab
      exact absurd (List.append_eq_nil_iff.1 (List.cons.inj hab).2).2 hb
  induction h generalizing us vs with
  | nil =>
    obtain ⟨rfl, rfl⟩ := List.append_eq_nil_iff.1 htokens
    exact .between rfl .nil .nil
  | spacing ht later ih =>
    rw [← List.singleton_append] at htokens
    exact lineCut_item htokens hus (.spacing ht .nil) later (fun _ _ h _ => htoken h)
      fun _ _ h hends => ih hends h
  | newline ht later ih =>
    rw [← List.singleton_append] at htokens
    exact lineCut_item htokens hus (.newline ht .nil) later (fun _ _ h _ => htoken h)
      fun _ _ h hends => ih hends h
  | comment ht later ih =>
    rw [← List.singleton_append] at htokens
    exact lineCut_item htokens hus (.comment ht .nil) later (fun _ _ h _ => htoken h)
      fun _ _ h hends => ih hends h
  | @use_ us _ _ _ isUse later ih =>
    have hitem := Items.use_ isUse .nil
    rw [List.append_nil] at hitem
    refine lineCut_item htokens hus hitem later ?_ fun _ _ h hends => ih hends h
    rintro a b rfl ha hb
    exact (isUse.braces_pos ha hb).imp_right .inBraces
  | @enum es _ _ _ isEnum later ih =>
    have hitem := Items.enum isEnum .nil
    rw [List.append_nil] at hitem
    refine lineCut_item htokens hus hitem later ?_ fun _ _ h hends => ih hends h
    rintro a b rfl ha hb
    exact (isEnum.braces_pos ha hb).imp_right .inBraces
  | @fn hs bs ts _ _ opening closing _ _ isHead isOpening isBody isClosing later ihBody ih =>
    have hsplit : us ++ vs = hs ++ opening :: (bs ++ [closing]) ++ ts := by
      rw [htokens]
      simp
    refine lineCut_item hsplit hus (.fn isHead isOpening isBody isClosing .nil) later ?_
      fun _ _ h hends => ih hends h
    intro a b hab ha hb
    have hopen := isHead.openParams_or_braces_pos hab isOpening (fun _ _ h hends => ihBody hends h)
      ha hb
    exact hopen.imp_right (Or.elim · .inParams .inBraces)

end Grammar

end Curly
